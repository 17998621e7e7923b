import MediaRefresh.Proofs.Image.FirstSupplier

/-!
# Images: what a gathering leaves alone

Gathering touches nothing of an item but its images, and of these only the types that some
provider is asked for: those that the item lacks or that are to be replaced, and that the
provider can supply.  A provider that fails in the middle has been asked for no others.
-/

set_option autoImplicit false

namespace MediaRefresh

variable {σ : Type}

/-! ## Images put on an item -/

namespace Item

theorem imagesOf_setImage {item : Item} {image : ItemImage} {t : ImageType}
    (h : image.imageType ≠ t) : (item.setImage image).imagesOf t = item.imagesOf t := by
  have hother (a : ItemImage) (ha : (a.imageType == t) = true) :
      (a.imageType != image.imageType) = true := by
    rw [eq_of_beq ha]
    simpa using h.symm
  unfold imagesOf setImage
  rw [List.filter_append, List.filter_cons_of_neg (by simpa using h), List.filter_nil,
    List.append_nil, filter_filter_of_imp _ hother]

theorem imagesOf_foldl_setImage {images : List ItemImage} {t : ImageType}
    (h : t ∉ images.map ItemImage.imageType) (item : Item) :
    (images.foldl setImage item).imagesOf t = item.imagesOf t := by
  refine List.foldlRecOn (motive := fun i : Item => i.imagesOf t = item.imagesOf t) images _
    rfl fun i hi image himage => ?_
  have hother : image.imageType ≠ t := fun hsame => h (hsame ▸ List.mem_map_of_mem himage)
  rw [imagesOf_setImage hother, hi]

theorem foldl_setImage_eq (images : List ItemImage) (item : Item) :
    images.foldl setImage item = { item with images := (images.foldl setImage item).images } :=
  List.foldlRecOn (motive := fun i : Item => i = { item with images := i.images }) images _
    rfl fun i hi image _ => by rw [hi]; rfl

end Item

theorem ImageGathering.item_eq (g : ImageGathering) :
    g.item = { g.origin with images := g.item.images } := Item.foldl_setImage_eq _ _

/-! ## Types that nobody is asked for -/

namespace ImageRound

variable {m : Manager σ} {options : RefreshOptions} {language : String} {w w' : World σ}
  {g g' : ImageGathering} {turns : List (ImageTurn σ)} {u : ImageTurn σ} {t : ImageType}

/-- A provider is asked what it can supply for the item with the images of its turn. -/
theorem supported_images (h : ImageRound m options language w g turns w' g') (hu : u ∈ turns) :
    ∃ images, u.supported = u.provider.types { g.origin with images := images } := by
  obtain ⟨before, after, rfl⟩ := List.append_of_mem hu
  obtain ⟨mid, gmid, hbefore, -, hturn⟩ := h.at_turn
  refine ⟨gmid.item.images, ?_⟩
  rw [← hbefore.origin_eq, ← gmid.item_eq, hturn]
  rfl

/-- No provider is asked for a type that is not wanted to begin with. -/
theorem not_wanted (h : ImageRound m options language w g turns w' g')
    (hunwanted : g.wants options t = false) (hu : u ∈ turns) : t ∉ u.wanted := by
  obtain ⟨before, after, rfl⟩ := List.append_of_mem hu
  obtain ⟨mid, gmid, hbefore, -, hasked⟩ := h.mem_wanted
  intro hwanted
  have hwants := hbefore.wants_of_wants ((hasked t).mp hwanted).2
  rw [hunwanted] at hwants
  cases hwants

/-- The images of a type that no provider is asked for stay as they are. -/
theorem imagesOf_eq (h : ImageRound m options language w ⟨g.item, [], []⟩ turns w' g')
    (hstore : m.StoresAsAsked) (hunasked : ∀ u ∈ turns, t ∉ u.wanted) :
    g'.item.imagesOf t = g.item.imagesOf t := by
  have hrecorded : t ∉ g'.recorded.map ItemImage.imageType := by
    rw [h.recorded_eq, List.nil_append, List.map_flatMap]
    intro hmem
    obtain ⟨u, hu, hsupplied⟩ := List.mem_flatMap.mp hmem
    exact hunasked u hu (h.wanted_of_supplied hstore hu hsupplied)
  unfold ImageGathering.item
  rw [Item.imagesOf_foldl_setImage hrecorded, h.origin_eq]
  rfl

end ImageRound

namespace Manager

variable (m : Manager σ) (item : Item) (options : RefreshOptions) (w : World σ)

/-- Every gathering is a round of turns, also one that a cancellation stops. -/
theorem gatherImages_round :
    ∃ turns g, ImageRound m options (m.language item) w ⟨item, [], []⟩ turns
        (World.after (m.gatherImages item options w)) g ∧
      turns.map ImageTurn.provider <+: m.imageProviders w.state item options.imageMode false ∧
      ∀ found w', m.gatherImages item options w = .ok found w' → found.1 = g.item ∧
        turns.map ImageTurn.provider = m.imageProviders w.state item options.imageMode false := by
  have hend := m.gatherImages_end item options w
  cases hrun : m.gatherImages item options w with
  | ok found last =>
    rw [hrun] at hend
    cases hend with
    | @gathered turns _ g hround hasked =>
      refine ⟨turns, g, hround, hasked ▸ List.prefix_refl _, ?_⟩
      rintro _ _ ⟨⟩
      exact ⟨rfl, hasked⟩
  | error e last =>
    rw [hrun] at hend
    cases hend with
    | @stopped turns _ g hround hasked _ =>
      refine ⟨turns, g, hround, hasked, ?_⟩
      rintro _ _ ⟨⟩

/-- Whatever providers and image store do, a gathering leaves the item, also when it is
cancelled, with the images that it had of every type that it had and that is not to be
replaced, and of every type that no provider said it can supply when it was its turn.  All
else about the item stays as it was. -/
theorem existing_images_survive (hstore : m.StoresAsAsked) :
    ∃ turns g, ImageRound m options (m.language item) w ⟨item, [], []⟩ turns
        (World.after (m.gatherImages item options w)) g ∧
      turns.map ImageTurn.provider <+: m.imageProviders w.state item options.imageMode false ∧
      (∀ found w', m.gatherImages item options w = .ok found w' → found.1 = g.item ∧
        turns.map ImageTurn.provider = m.imageProviders w.state item options.imageMode false) ∧
      (∀ u ∈ turns, ∃ images, u.supported = u.provider.types { item with images := images }) ∧
      g.item = { item with images := g.item.images } ∧
      ∀ t, (item.hasImage t = true ∧ options.replaces t = false ∨ ∀ u ∈ turns, t ∉ u.supported) →
        g.item.imagesOf t = item.imagesOf t := by
  obtain ⟨turns, g, hround, hasked, hreturned⟩ := m.gatherImages_round item options w
  have horigin : g.origin = item := hround.origin_eq
  refine ⟨turns, g, hround, hasked, hreturned, fun u hu => hround.supported_images hu, ?_, ?_⟩
  · rw [← horigin]
    exact g.item_eq
  · intro t hkept
    refine hround.imagesOf_eq (g := ⟨item, [], []⟩) hstore fun u hu => ?_
    obtain ⟨hhas, hstays⟩ | hunsupported := hkept
    · refine hround.not_wanted ?_ hu
      have hitem : ImageGathering.item ⟨item, [], []⟩ = item := rfl
      unfold ImageGathering.wants
      rw [hitem, hhas, hstays]
      exact Bool.and_false _
    · exact fun hwanted => hunsupported u hu ((hround.supported_eq hu).2.subset hwanted)

end Manager

/-! ## A film with two posters -/

namespace Rehearsal

/-- The film with two posters. -/
def illustrated : Item :=
  { film with images := [⟨"/one.jpg", .primary, none, none⟩, ⟨"/two.jpg", .primary, none, none⟩] }

theorem illustrated_selected (mode : RefreshMode) :
    (pictures [frames []]).imageProviders Manager.emptyStage illustrated mode false =
      [frames []] := by
  refine ImageProvider.select_of_ordered (fun p hp => ?_) (List.pairwise_singleton _ _)
  obtain rfl := List.mem_singleton.mp hp
  cases mode <;> rfl

end Rehearsal

open Rehearsal

/-- A backdrop is made, and both posters are kept. -/
theorem Manager.posters_kept :
    ∃ found w', (pictures [frames []]).gatherImages illustrated .standard (.fresh emptyStage) =
        .ok found w' ∧ found.1.hasImage .backdrop = true ∧
      found.1.imagesOf .primary = illustrated.images := by
  have hrun : ∃ found w', (pictures [frames []]).gatherImages illustrated .standard
      (.fresh emptyStage) = .ok found w' ∧ found.1.hasImage .backdrop = true := by
    rw [gatherImages_eq]
    unfold World.fresh
    rw [illustrated_selected]
    exact ⟨_, _, rfl, rfl⟩
  obtain ⟨found, w', hrun, hmade⟩ := hrun
  obtain ⟨turns, g, -, -, hreturned, -, -, hkept⟩ := existing_images_survive (pictures [frames []])
    illustrated .standard (.fresh emptyStage) (pictures_storesAsAsked _)
  refine ⟨found, w', hrun, hmade, ?_⟩
  rw [(hreturned found w' hrun).1]
  exact hkept .primary (Or.inl ⟨rfl, rfl⟩)

end MediaRefresh
