import MediaRefresh.Proofs.Image.Round
import MediaRefresh.Proofs.Metadata.CallOrder

/-!
# Images: when a change is reported

A change of images is reported when a provider that came to its end has put an image on the
item.  An image of a provider that failed afterwards is on the item without being reported,
so that nothing may be persisted.
-/

set_option autoImplicit false

namespace MediaRefresh

open RefreshM

variable {σ : Type}

theorem ImageGathering.update_holds (g : ImageGathering) :
    g.update.holds .imageUpdate = true ↔ g.filled ≠ [] := by
  unfold update
  cases g.filled with
  | nil => simp
  | cons t rest => simp

theorem flatMap_ne_nil_iff {α β : Type} {l : List α} {f : α → List β} :
    l.flatMap f ≠ [] ↔ ∃ a ∈ l, f a ≠ [] := by
  simp [List.flatMap_eq_nil_iff]

/-- A provider that came to its end has filled a type if it has supplied an image. -/
theorem ImageTurn.filled_ne_nil_iff {t : ImageTurn σ} {faithful : Prop}
    (h : t.supply.Matched faithful) :
    t.filled ≠ [] ↔ t.failed = false ∧ t.supply.recorded ≠ [] := by
  rw [Ne, Ne, h.recorded_eq_nil_iff, filled]
  cases t.failed with
  | true => simp
  | false => simp

theorem ImageRound.filled_ne_nil_iff {m : Manager σ} {options : RefreshOptions}
    {language : String} {w w' : World σ} {item : Item} {g : ImageGathering}
    {turns : List (ImageTurn σ)}
    (h : ImageRound m options language w ⟨item, [], []⟩ turns w' g) :
    g.filled ≠ [] ↔ ∃ t ∈ turns, t.failed = false ∧ t.supply.recorded ≠ [] := by
  rw [h.filled_eq, List.nil_append, flatMap_ne_nil_iff]
  refine exists_congr fun t => and_congr_right fun ht => ?_
  exact ImageTurn.filled_ne_nil_iff (h.serves t ht).toMatched

namespace Manager

/-- A refresh goes on to persist the item when its images have changed. -/
theorem refreshByProviders_of_images {m : Manager σ} {before item : Item}
    {options : RefreshOptions} {start w w' : World σ} {known : Update} {found : Item × Update}
    (hknown : gatherWhen options.metadataMode.fetches (m.gatherMetadata · options) before start =
      .ok (item, known) w)
    (hfetches : options.imageMode.fetches = true)
    (hfound : m.gatherImages item options w = .ok found w')
    (hchanged : found.2.holds .imageUpdate = true) :
    m.refreshByProviders before options start =
      (m.commit found.1 (known.union found.2) >>= fun _ => pure (known.union found.2)) w' := by
  have hpictured : gatherWhen options.imageMode.fetches (m.gatherImages · options) item w =
      .ok found w' := by
    rw [hfetches]
    exact hfound
  have hgather : m.gather before options start = .ok (found.1, known.union found.2) w' := by
    unfold gather
    rw [bind_of_ok hknown]
    dsimp only
    rw [bind_of_ok hpictured]
    rfl
  have hnonempty : (known.union found.2).isEmpty = false := by
    refine Bool.eq_false_iff.mpr fun hempty => ?_
    have hholds : (known.union found.2).holds .imageUpdate = true := by
      rw [Update.holds_union, hchanged, Bool.or_true]
    rw [(Update.isEmpty_iff _).mp hempty, Update.holds_empty] at hholds
    cases hholds
  unfold refreshByProviders
  rw [bind_of_ok hgather]
  dsimp only
  rw [hnonempty]
  rfl

/-- When images have been gathered, the update says so exactly when a provider that did not
fail has put one on the item, and then the refresh goes on to persist the item.  Only the
images of providers that failed afterwards may go unreported. -/
theorem image_change_reported (m : Manager σ) (item : Item) (options : RefreshOptions)
    (w w' : World σ) (found : Item × Update)
    (h : m.gatherImages item options w = .ok found w') :
    ∃ turns g, ImageRound m options (m.language item) w ⟨item, [], []⟩ turns w' g ∧
      turns.map ImageTurn.provider = m.imageProviders w.state item options.imageMode false ∧
      found.1 = g.item ∧ g.recorded = turns.flatMap (·.supply.recorded) ∧
      (found.2.holds .imageUpdate = true ↔
        ∃ t ∈ turns, t.failed = false ∧ t.supply.recorded ≠ []) ∧
      ((∀ t ∈ turns, t.failed = true → t.supply.recorded = []) →
        (found.2.holds .imageUpdate = true ↔ g.recorded ≠ [])) ∧
      ∀ before start known, gatherWhen options.metadataMode.fetches
          (m.gatherMetadata · options) before start = .ok (item, known) w →
        options.imageMode.fetches = true → found.2.holds .imageUpdate = true →
        m.refreshByProviders before options start =
          (m.commit found.1 (known.union found.2) >>= fun _ =>
            pure (known.union found.2)) w' := by
  have hend := m.gatherImages_end item options w
  rw [h] at hend
  cases hend with
  | @gathered turns _ g hround hasked =>
    have hreported : g.update.holds .imageUpdate = true ↔
        ∃ t ∈ turns, t.failed = false ∧ t.supply.recorded ≠ [] :=
      g.update_holds.trans hround.filled_ne_nil_iff
    have hrecorded : g.recorded = turns.flatMap (·.supply.recorded) := hround.recorded_eq
    refine ⟨turns, g, hround, hasked, rfl, hrecorded, hreported, fun hkept => ?_, ?_⟩
    · rw [hreported, hrecorded, flatMap_ne_nil_iff]
      refine exists_congr fun t => and_congr_right fun ht => ?_
      constructor
      · exact And.right
      · intro hsupplied
        refine ⟨Bool.eq_false_iff.mpr fun hfailed => ?_, hsupplied⟩
        exact hsupplied (hkept t ht hfailed)
    · intro before start known hknown hfetches hchanged
      exact refreshByProviders_of_images hknown hfetches h hchanged

end Manager

/-! ## Frames of a film -/

namespace Rehearsal

/-- A provider that makes images of a film from its frames, and fails for some types. -/
def frames (failing : List ImageType) : ImageProvider Stage where
  name := "Frames"
  source := .dynamic
  order := 0
  supports := fun _ => .ok true
  types := fun _ => [.primary, .backdrop]
  candidates := none
  generate := some fun _ t =>
    if failing.contains t then answer (.error (.of "out of frames")) false
    else answer (.ok (some ⟨none, "frame"⟩)) false
  download := none

/-- A manager that has only image providers, in a library that restricts nothing. -/
def pictures (providers : List (ImageProvider Stage)) : Manager Stage :=
  { twoProviders false with providers := { ProviderSet.empty with imageProviders := providers } }

theorem pictures_selected {providers : List (ImageProvider Stage)} {mode : RefreshMode}
    (h : ∀ p ∈ providers, ∃ failing, p = frames failing) :
    (pictures providers).imageProviders Manager.emptyStage film mode false = providers := by
  refine ImageProvider.select_of_ordered (fun p hp => ?_) (List.pairwise_of_forall_mem_list ?_)
  · obtain ⟨failing, rfl⟩ := h p hp
    cases mode <;> rfl
  · intro p hp q hq
    obtain ⟨_, rfl⟩ := h p hp
    obtain ⟨_, rfl⟩ := h q hq
    rfl

end Rehearsal

open Rehearsal

namespace Manager

/-- Two images are made, and the film is persisted with them. -/
theorem frames_reported :
    ∃ found w', (pictures [frames []]).gatherImages film .standard (.fresh emptyStage) =
        .ok found w' ∧ found.2.holds .imageUpdate = true ∧
      (pictures [frames []]).refreshByProviders film { RefreshOptions.standard with
          metadataMode := .skip } (.fresh emptyStage) =
        ((pictures [frames []]).commit found.1 (Update.empty.union found.2) >>= fun _ =>
          pure (Update.empty.union found.2)) w' := by
  have hrun : ∃ found w', (pictures [frames []]).gatherImages film
      { RefreshOptions.standard with metadataMode := .skip } (.fresh emptyStage) =
        .ok found w' ∧ found.2.holds .imageUpdate = true := by
    rw [gatherImages_eq]
    unfold World.fresh
    rw [pictures_selected (by simp)]
    exact ⟨_, _, rfl, rfl⟩
  obtain ⟨found, w', hrun, hreported⟩ := hrun
  obtain ⟨turns, g, -, -, -, -, -, -, hpersisted⟩ := image_change_reported _ _ _ _ _ _ hrun
  refine ⟨found, w', hrun, hreported, ?_⟩
  exact hpersisted film (.fresh emptyStage) .empty rfl rfl hreported

/-- A poster is on the item, and the update is empty because the backdrop failed. -/
theorem image_change_lost :
    ¬ ∀ (m : Manager Stage) (item : Item) (options : RefreshOptions) (w w' : World Stage)
      (found : Item × Update), m.gatherImages item options w = .ok found w' →
      found.1.images ≠ item.images → found.2.holds .imageUpdate = true := by
  intro h
  have hrun : ∃ found w', (pictures [frames [.backdrop]]).gatherImages film .standard
      (.fresh emptyStage) = .ok found w' ∧ found.2 = .empty ∧ found.1.images ≠ film.images := by
    rw [gatherImages_eq]
    unfold World.fresh
    rw [pictures_selected (by simp)]
    exact ⟨_, _, rfl, rfl, by decide⟩
  obtain ⟨found, w', hrun, hunreported, himages⟩ := hrun
  have hreported := h _ _ _ _ _ _ hrun himages
  rw [hunreported, Update.holds_empty] at hreported
  cases hreported

end Manager

end MediaRefresh
