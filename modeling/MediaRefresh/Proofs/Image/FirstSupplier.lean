import MediaRefresh.Proofs.Image.Report

/-!
# Images: the first provider wins

A type that a provider has supplied is not asked of those behind it, and a type that is
supplied was asked of all those before that can supply it.  The exception are the types that
are to be replaced and whose provider failed afterwards: later ones are asked for them again.
-/

set_option autoImplicit false

namespace MediaRefresh

open RefreshM

variable {σ : Type}

/-! ## Which types an item has -/

theorem Item.hasImage_setImage (item : Item) (image : ItemImage) (t : ImageType) :
    (item.setImage image).hasImage t = (item.hasImage t || image.imageType == t) := by
  unfold hasImage setImage
  rw [List.any_append, List.any_filter, List.any_cons, List.any_nil, Bool.or_false]
  cases hsame : image.imageType == t with
  | true => simp
  | false =>
    rw [Bool.or_false, Bool.or_false]
    congr 1
    funext a
    cases hkind : a.imageType == t with
    | false => exact Bool.and_false _
    | true =>
      have hother : a.imageType ≠ image.imageType := by
        rw [eq_of_beq hkind]
        exact fun h => by simp [h] at hsame
      simpa using hother

theorem ImageGathering.hasImage_item (g : ImageGathering) (t : ImageType) :
    g.item.hasImage t = (g.origin.hasImage t || g.recorded.any (·.imageType == t)) := by
  have hall (images : List ItemImage) (item : Item) :
      (images.foldl Item.setImage item).hasImage t =
        (item.hasImage t || images.any (·.imageType == t)) := by
    induction images generalizing item with
    | nil => exact (Bool.or_false _).symm
    | cons image rest ih =>
      rw [List.foldl_cons, ih, Item.hasImage_setImage, List.any_cons, Bool.or_assoc]
  exact hall g.recorded g.origin

/-! ## Which types are wanted -/

namespace ImageRound

variable {m : Manager σ} {options : RefreshOptions} {language : String} {w w' : World σ}
  {g g' : ImageGathering} {turns before after : List (ImageTurn σ)} {u : ImageTurn σ}
  {t : ImageType}

/-- A type that is wanted at last was wanted from the first. -/
theorem wants_of_wants (h : ImageRound m options language w g turns w' g')
    (hwants : g'.wants options t = true) : g.wants options t = true := by
  unfold ImageGathering.wants at hwants ⊢
  rw [h.filled_eq, ImageGathering.hasImage_item, h.origin_eq, h.recorded_eq] at hwants
  rw [ImageGathering.hasImage_item]
  simp only [List.contains_eq_mem, List.mem_append, List.any_append, Bool.and_eq_true,
    Bool.not_eq_true', decide_eq_false_iff_not, not_or, Bool.or_eq_true, Bool.or_eq_false_iff]
    at hwants ⊢
  exact ⟨hwants.1.1, hwants.2.imp_left fun hlacks => ⟨hlacks.1, hlacks.2.1⟩⟩

/-- A type that has been supplied is wanted no more, unless it is to be replaced and its
provider failed afterwards. -/
theorem not_wants_of_supplied (h : ImageRound m options language w g turns w' g')
    (hstore : m.StoresAsAsked) (hu : u ∈ turns) (ht : t ∈ u.supply.types)
    (hkept : options.replaces t = true → u.failed = false) : g'.wants options t = false := by
  refine Bool.eq_false_iff.mpr fun hwants => ?_
  obtain ⟨hunfilled, hmissing⟩ := Bool.and_eq_true_iff.mp hwants
  cases hreplaces : options.replaces t with
  | true =>
    have hfilled : t ∈ g'.filled := by
      rw [h.filled_eq]
      refine List.mem_append_right _ (List.mem_flatMap.mpr ⟨u, hu, ?_⟩)
      rw [ImageTurn.filled, hkept hreplaces]
      exact ht
    simp [hfilled] at hunfilled
  | false =>
    have hrecorded : g'.recorded.any (·.imageType == t) = true := by
      rw [← (h.serves u hu).types_eq hstore] at ht
      obtain ⟨image, himage, rfl⟩ := List.mem_map.mp ht
      rw [h.recorded_eq]
      refine List.any_eq_true.mpr ⟨image, List.mem_append_right _ ?_, beq_self_eq_true _⟩
      exact List.mem_flatMap.mpr ⟨u, hu, himage⟩
    rw [hreplaces, Bool.or_false, ImageGathering.hasImage_item, hrecorded] at hmissing
    simp at hmissing

end ImageRound

namespace ImageTurn

/-- Whether the provider put an image of the type on the item. -/
def Supplied (u : ImageTurn σ) (t : ImageType) : Prop :=
  t ∈ u.supply.recorded.map ItemImage.imageType

end ImageTurn

/-- The provider of this turn supplied the type first: those before it that can supply it
were asked and did not, and those behind it were not asked. -/
structure FirstSupplier (t : ImageType) (before : List (ImageTurn σ)) (u : ImageTurn σ)
    (after : List (ImageTurn σ)) : Prop where
  asked : t ∈ u.wanted
  before : ∀ e ∈ before, ¬ e.Supplied t ∧ (t ∈ e.supported → t ∈ e.wanted)
  after : ∀ e ∈ after, t ∉ e.wanted ∧ ¬ e.Supplied t

namespace ImageRound

variable {m : Manager σ} {options : RefreshOptions} {language : String} {w w' : World σ}
  {g g' : ImageGathering} {turns before after : List (ImageTurn σ)} {u : ImageTurn σ}
  {t : ImageType}

theorem supplied_iff (h : ImageRound m options language w g turns w' g')
    (hstore : m.StoresAsAsked) (hu : u ∈ turns) : u.Supplied t ↔ t ∈ u.supply.types := by
  unfold ImageTurn.Supplied
  rw [(h.serves u hu).types_eq hstore]

/-- What a provider has supplied, later ones are not asked for. -/
theorem not_wanted_after (h : ImageRound m options language w g (before ++ u :: after) w' g')
    (hstore : m.StoresAsAsked) (hsupplied : u.Supplied t)
    (hkept : options.replaces t = true → u.failed = false) : ∀ e ∈ after, t ∉ e.wanted := by
  intro e he hwanted
  obtain ⟨first, rest, rfl⟩ := List.append_of_mem he
  have hsplit : before ++ u :: (first ++ e :: rest) = (before ++ u :: first) ++ e :: rest := by
    simp
  have ht : t ∈ u.supply.types := (h.supplied_iff hstore (by simp)).mp hsupplied
  rw [hsplit] at h
  obtain ⟨mid, gmid, hbefore, -, hasked⟩ := h.mem_wanted
  have hwants := ((hasked t).mp hwanted).2
  rw [hbefore.not_wants_of_supplied hstore (by simp) ht hkept] at hwants
  cases hwants

/-- What is asked of a provider was asked of all those before that can supply it. -/
theorem wanted_before (h : ImageRound m options language w g (before ++ u :: after) w' g')
    (hwanted : t ∈ u.wanted) : ∀ e ∈ before, t ∈ e.supported → t ∈ e.wanted := by
  intro e he hsupported
  obtain ⟨mid, gmid, hbefore, -, hasked⟩ := h.mem_wanted
  obtain ⟨first, rest, rfl⟩ := List.append_of_mem he
  obtain ⟨early, gearly, -, hrest, hasked'⟩ := hbefore.mem_wanted
  exact (hasked' t).mpr ⟨hsupported, hrest.wants_of_wants ((hasked t).mp hwanted).2⟩

theorem wanted_of_supplied (h : ImageRound m options language w g turns w' g')
    (hstore : m.StoresAsAsked) (hu : u ∈ turns) (hsupplied : u.Supplied t) : t ∈ u.wanted :=
  (h.serves u hu).subset ((h.supplied_iff hstore hu).mp hsupplied)

theorem firstSupplier (h : ImageRound m options language w g (before ++ u :: after) w' g')
    (hstore : m.StoresAsAsked) (hsupplied : u.Supplied t)
    (hkept : options.replaces t = true →
      ∀ e ∈ before ++ u :: after, e.Supplied t → e.failed = false) :
    FirstSupplier t before u after := by
  have hwanted : t ∈ u.wanted := h.wanted_of_supplied hstore (by simp) hsupplied
  have hafter := h.not_wanted_after hstore hsupplied fun hreplaces =>
    hkept hreplaces u (by simp) hsupplied
  refine ⟨hwanted, fun e he => ⟨fun hearlier => ?_, h.wanted_before hwanted e he⟩,
    fun e he => ⟨hafter e he, fun hlater => ?_⟩⟩
  · obtain ⟨first, rest, rfl⟩ := List.append_of_mem he
    have hsplit : (first ++ e :: rest) ++ u :: after = first ++ e :: (rest ++ u :: after) := by
      simp
    have hkept' := fun hreplaces => hkept hreplaces e (by simp) hearlier
    rw [hsplit] at h
    exact h.not_wanted_after hstore hearlier hkept' u (by simp) hwanted
  · exact hafter e he (h.wanted_of_supplied hstore (by simp [he]) hlater)

/-- A provider is asked for some of the types that it can supply for some item. -/
theorem supported_eq (h : ImageRound m options language w g turns w' g') (hu : u ∈ turns) :
    (∃ i, u.supported = u.provider.types i) ∧ u.wanted.Sublist u.supported := by
  obtain ⟨before, after, rfl⟩ := List.append_of_mem hu
  obtain ⟨mid, gmid, -, -, hturn⟩ := h.at_turn
  rw [hturn]
  exact ⟨⟨gmid.item, rfl⟩, List.filter_sublist⟩

/-- One provider puts an image of a type on the item at most once. -/
theorem count_turn_le_one (h : ImageRound m options language w g turns w' g')
    (hstore : m.StoresAsAsked) (hu : u ∈ turns) (honce : u.supported.Nodup) :
    (u.supply.recorded.map ItemImage.imageType).count t ≤ 1 := by
  have hserves := h.serves u hu
  have hnodup := hserves.nodup (honce.sublist (h.supported_eq hu).2)
  rw [hserves.types_eq hstore, hnodup.count]
  split <;> omega

theorem count_of_not_supplied (h : ∀ e ∈ turns, ¬ e.Supplied t) :
    ((turns.flatMap (·.supply.recorded)).map ItemImage.imageType).count t = 0 := by
  rw [List.count_eq_zero, List.map_flatMap]
  intro hmem
  obtain ⟨e, he, hsupplied⟩ := List.mem_flatMap.mp hmem
  exact h e he hsupplied

/-- A type that was supplied at all was supplied once. -/
theorem count_le_one (h : ImageRound m options language w g turns w' g')
    (hstore : m.StoresAsAsked) (honce : ∀ e ∈ turns, e.supported.Nodup)
    (hkept : options.replaces t = true → ∀ e ∈ turns, e.Supplied t → e.failed = false) :
    ((turns.flatMap (·.supply.recorded)).map ItemImage.imageType).count t ≤ 1 := by
  by_cases hnone : ∀ e ∈ turns, ¬ e.Supplied t
  · rw [count_of_not_supplied hnone]
    exact Nat.zero_le 1
  · obtain ⟨u, hu, hsupplied⟩ : ∃ u ∈ turns, u.Supplied t := by simpa using hnone
    have hone := h.count_turn_le_one (t := t) hstore hu (honce u hu)
    obtain ⟨before, after, rfl⟩ := List.append_of_mem hu
    have hfirst := h.firstSupplier hstore hsupplied hkept
    rw [List.flatMap_append, List.flatMap_cons, List.map_append, List.map_append,
      List.count_append, List.count_append,
      count_of_not_supplied fun e he => (hfirst.before e he).1,
      count_of_not_supplied fun e he => (hfirst.after e he).2, Nat.zero_add, Nat.add_zero]
    exact hone

end ImageRound

namespace Manager

/-- Every type is put on the item at most once, by the first of the providers that manages
to supply it, in a gathering that may also be cancelled.  Exempt is a type that is to be
replaced and whose provider failed afterwards. -/
theorem first_supplier_wins (m : Manager σ) (hstore : m.StoresAsAsked) (item : Item)
    (options : RefreshOptions) (w : World σ)
    (honce : ∀ p ∈ m.imageProviders w.state item options.imageMode false,
      ∀ i, (p.types i).Nodup) :
    ∃ turns w' g, ImageRound m options (m.language item) w ⟨item, [], []⟩ turns w' g ∧
      turns.map ImageTurn.provider <+: m.imageProviders w.state item options.imageMode false ∧
      World.after (m.gatherImages item options w) = w' ∧
      (∀ found last, m.gatherImages item options w = .ok found last → found.1 = g.item ∧
        turns.map ImageTurn.provider = m.imageProviders w.state item options.imageMode false) ∧
      ∀ t, (options.replaces t = true → ∀ u ∈ turns, u.Supplied t → u.failed = false) →
        (g.recorded.map ItemImage.imageType).count t ≤ 1 ∧
        ∀ before u after, turns = before ++ u :: after → u.Supplied t →
          FirstSupplier t before u after := by
  have hof {turns : List (ImageTurn σ)} {w' : World σ} {g : ImageGathering}
      (hround : ImageRound m options (m.language item) w ⟨item, [], []⟩ turns w' g)
      (hasked : turns.map ImageTurn.provider <+:
        m.imageProviders w.state item options.imageMode false) (t : ImageType)
      (hkept : options.replaces t = true → ∀ u ∈ turns, u.Supplied t → u.failed = false) :
      (g.recorded.map ItemImage.imageType).count t ≤ 1 ∧
        ∀ before u after, turns = before ++ u :: after → u.Supplied t →
          FirstSupplier t before u after := by
    have hrecorded : g.recorded = turns.flatMap (·.supply.recorded) := hround.recorded_eq
    rw [hrecorded]
    refine ⟨hround.count_le_one hstore (fun u hu => ?_) hkept, ?_⟩
    · obtain ⟨⟨i, hi⟩, -⟩ := hround.supported_eq hu
      rw [hi]
      exact honce u.provider (hasked.subset (List.mem_map_of_mem hu)) i
    · rintro before u after rfl hsupplied
      exact hround.firstSupplier hstore hsupplied hkept
  have hend := m.gatherImages_end item options w
  cases hrun : m.gatherImages item options w with
  | ok found last =>
    rw [hrun] at hend
    cases hend with
    | @gathered turns _ g hround hasked =>
      refine ⟨turns, last, g, hround, hasked ▸ List.prefix_refl _, rfl, ?_,
        hof hround (hasked ▸ List.prefix_refl _)⟩
      rintro _ _ ⟨⟩
      exact ⟨rfl, hasked⟩
  | error e last =>
    rw [hrun] at hend
    cases hend with
    | @stopped turns _ g hround hasked _ =>
      refine ⟨turns, last, g, hround, hasked, rfl, ?_, hof hround hasked⟩
      rintro _ _ ⟨⟩

end Manager

/-! ## Two providers of frames -/

namespace Rehearsal

theorem pictures_storesAsAsked (providers : List (ImageProvider Stage)) :
    (pictures providers).StoresAsAsked := by
  intro item t mediaType data s image hstored
  unfold pictures twoProviders Stage.host at hstored
  dsimp only at hstored
  split at hstored
  · cases hstored
  · cases hstored
    rfl

/-- The image that is stored for a frame of the film. -/
def frame (t : ImageType) : ItemImage :=
  ⟨"/images/" ++ film.id.text ++ "/" ++ t.name, t, none, none⟩

/-- A manager with two providers of frames, of which the first fails at the backdrop. -/
def framesTwice : Manager Stage := pictures [frames [.backdrop], frames []]

theorem framesTwice_selected (mode : RefreshMode) :
    framesTwice.imageProviders Manager.emptyStage film mode false =
      [frames [.backdrop], frames []] := pictures_selected (by simp)

theorem framesTwice_types_nodup (mode : RefreshMode) :
    ∀ p ∈ framesTwice.imageProviders (World.fresh Manager.emptyStage).state film mode false,
      ∀ i, (p.types i).Nodup := by
  unfold World.fresh
  rw [framesTwice_selected, List.forall_mem_cons, List.forall_mem_singleton]
  have hnodup : [ImageType.primary, .backdrop].Nodup := by decide
  exact ⟨fun _ => hnodup, fun _ => hnodup⟩

end Rehearsal

open Rehearsal

namespace Manager

/-- The first provider fails at the backdrop, which then comes from the second. -/
theorem frames_once :
    ∃ turns w' g, ImageRound framesTwice .standard "en" (.fresh emptyStage) ⟨film, [], []⟩
        turns w' g ∧
      World.after (framesTwice.gatherImages film .standard (.fresh emptyStage)) = w' ∧
      ∀ t, (g.recorded.map ItemImage.imageType).count t ≤ 1 := by
  obtain ⟨turns, w', g, hround, -, hafter, -, hwins⟩ := first_supplier_wins framesTwice
    (pictures_storesAsAsked _) film .standard (.fresh emptyStage) (framesTwice_types_nodup _)
  refine ⟨turns, w', g, hround, hafter, fun t => (hwins t fun hreplaces => ?_).1⟩
  have hnever : RefreshOptions.standard.replaces t = false := rfl
  rw [hnever] at hreplaces
  cases hreplaces

/-- When all images are to be replaced, the second provider also replaces the poster that
the first one made before it failed. -/
theorem poster_replaced_again :
    ¬ ∀ (m : Manager Stage) (item : Item) (options : RefreshOptions) (w w' : World Stage)
      (turns : List (ImageTurn Stage)) (g : ImageGathering), m.StoresAsAsked →
      (∀ p ∈ m.imageProviders w.state item options.imageMode false, ∀ i, (p.types i).Nodup) →
      ImageRound m options (m.language item) w ⟨item, [], []⟩ turns w' g →
      turns.map ImageTurn.provider = m.imageProviders w.state item options.imageMode false →
      ∀ t, (g.recorded.map ItemImage.imageType).count t ≤ 1 := by
  intro h
  have hfirst : ∃ mid, framesTwice.supply (frames [.backdrop]) "en" film [.primary, .backdrop]
      (.fresh emptyStage) = .ok ⟨[frame .primary], [.primary], some (.of "out of frames")⟩ mid ∧
      mid.state = emptyStage ∧ mid.cancelled = false := ⟨_, rfl, rfl, rfl⟩
  obtain ⟨⟨state, cancelled, tracker, journal⟩, hfirst, rfl, rfl⟩ := hfirst
  have hsecond : ∃ last, framesTwice.supply (frames []) "en" (film.setImage (frame .primary))
      [.primary, .backdrop] ⟨emptyStage, false, tracker, journal⟩ =
        .ok ⟨[frame .primary, frame .backdrop], [.primary, .backdrop], none⟩ last := ⟨_, rfl⟩
  obtain ⟨last, hsecond⟩ := hsecond
  have hrest : ImageRound framesTwice .full "en" ⟨emptyStage, false, tracker, journal⟩
      ⟨film, [frame .primary], []⟩ [_] last _ :=
    .asked (p := frames []) rfl (List.cons_ne_nil _ _) hsecond (.done _ _)
  have hround : ImageRound framesTwice .full "en" (.fresh emptyStage) ⟨film, [], []⟩
      (_ :: [_]) last _ :=
    .asked (p := frames [.backdrop]) rfl (List.cons_ne_nil _ _) hfirst hrest
  have honce := h framesTwice film .full _ _ _ _ (pictures_storesAsAsked _)
    (framesTwice_types_nodup _) hround (framesTwice_selected .full).symm .primary
  exact absurd honce (by decide)

end Manager

end MediaRefresh
