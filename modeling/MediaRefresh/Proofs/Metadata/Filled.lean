import MediaRefresh.Proofs.Metadata.Round

/-!
# Metadata: what is filled stays filled

Merging a result may put one value in the place of another, but never nothing in the place
of something: a field in which a value is present still has one, whatever was merged.  Of an
overview this says no more than that there is one.  Unlike a name it may be blank, and a
blank one takes the place of a text when it may overwrite.
-/

set_option autoImplicit false

namespace MediaRefresh

variable {σ : Type}

/-! ## Fields in which a value is present -/

/-- Every field in which the first item has a value has one in the second, the same or
another. -/
def KeepsFilled (item item' : Item) : Prop :=
  ∀ f : MetadataField, f.present (f.ofItem item) = true → f.present (f.ofItem item') = true

theorem KeepsFilled.refl (item : Item) : KeepsFilled item item := fun _ h => h

theorem KeepsFilled.trans {item mid item' : Item} (h : KeepsFilled item mid)
    (h' : KeepsFilled mid item') : KeepsFilled item item' := fun f hf => h' f (h f hf)

theorem mergeField_isSome {α : Type} {same : α → α → Bool} {overwrite : Bool}
    {target source : Option α} (h : target.isSome = true) :
    (mergeField same overwrite target source).1.isSome = true := by
  unfold mergeField
  cases source with
  | none => exact h
  | some v =>
    dsimp only
    split
    · rfl
    · exact h

/-- Ids are only ever replaced by ids, however many a result has under one key. -/
theorem foldl_mergeId_isSome {overwrite : Bool} {acc : ExternalIds × Bool} {key : String}
    {es : List (String × String)} (h : (acc.1.get key).isSome = true) :
    ((es.foldl (mergeId overwrite) acc).1.get key).isSome = true := by
  cases overwrite with
  | false =>
    rw [foldl_mergeId_fill, Option.isSome_or, h]
    rfl
  | true => rw [foldl_mergeId_replace, Option.isSome_or, h, Bool.or_true]

theorem MetadataResult.applyTo_keepsFilled (r : MetadataResult) (overwrite : Bool) (item : Item) :
    KeepsFilled item (r.applyTo overwrite item).1 := by
  intro f hfilled
  cases f with
  | name =>
    have hname : (r.applyTo overwrite item).1.name =
        settled (fun n => !Text.blank n) overwrite item.name [r.name.getD ""] :=
      mergeName_settled
    change (!Text.blank (r.applyTo overwrite item).1.name) = true
    rw [hname]
    exact present_settled (Or.inl rfl) hfilled
  | overview => exact mergeField_isSome hfilled
  | productionYear => exact mergeField_isSome hfilled
  | premiereDate => exact mergeField_isSome hfilled
  | communityRating => exact mergeField_isSome hfilled
  | genres =>
    have hgenres : (r.applyTo overwrite item).1.genres =
        settled (fun gs => !gs.isEmpty) overwrite item.genres [r.genres] := mergeGenres_settled
    change (!(r.applyTo overwrite item).1.genres.isEmpty) = true
    rw [hgenres]
    exact present_settled (Or.inl rfl) hfilled
  | externalId key => exact foldl_mergeId_isSome hfilled

theorem Item.withResults_keepsFilled (item : Item) (overwrite : Bool)
    (results : List MetadataResult) :
    KeepsFilled item (item.withResults overwrite results) := by
  induction results generalizing item overwrite with
  | nil => exact .refl item
  | cons r rest ih => exact (r.applyTo_keepsFilled overwrite item).trans (ih _ false)

/-! ## Overviews with a text -/

/-- What becomes of a field that has a value: only a first offer that may overwrite counts. -/
theorem settled_of_present {β : Type} {present : β → Bool} {overwrite : Bool} {own : β}
    {offers : List β} (h : present own = true) :
    settled present overwrite own offers =
      ((if overwrite then offers.head? else none).filter present).getD own := by
  cases overwrite with
  | false => simp [settled, ranked, h]
  | true =>
    cases offers with
    | nil => simp [settled, ranked, h]
    | cons a rest => cases ha : present a <;> simp [settled, ranked, h, ha, Option.filter]

namespace Item

/-- Whether the item has an overview that is not blank. -/
def described (item : Item) : Bool := item.overview.any fun s => !Text.blank s

theorem withResults_overview (item : Item) (overwrite : Bool) (results : List MetadataResult) :
    (item.withResults overwrite results).overview =
      settled Option.isSome overwrite item.overview (results.map (·.overview)) := by
  induction results generalizing item overwrite with
  | nil => exact settled_nil.symm
  | cons r rest ih =>
    have hfirst : (r.applyTo overwrite item).1.overview =
        settled Option.isSome overwrite item.overview [r.overview] := mergeField_settled_of_beq
    rw [withResults, ih, hfirst, List.map_cons]
    exact settled_cons.symm

/-- An overview with a text is lost in one way only: to the blank one of the first result,
where that may overwrite. -/
theorem described_withResults {item : Item} (h : item.described = true) (overwrite : Bool)
    (results : List MetadataResult) :
    (item.withResults overwrite results).described = false ↔
      overwrite = true ∧ ∃ r s, results.head? = some r ∧ r.overview = some s ∧
        Text.blank s = true := by
  have hlaw := item.withResults_overview overwrite results
  unfold described at h ⊢
  cases htext : item.overview with
  | none =>
    rw [htext] at h
    cases h
  | some text =>
    rw [htext] at h hlaw
    rw [settled_of_present rfl] at hlaw
    rw [hlaw]
    have hsaid : Text.blank text = false := (Bool.not_eq_true' _).mp h
    cases overwrite with
    | false => simp [hsaid]
    | true =>
      cases results with
      | nil => simp [hsaid]
      | cons r rest =>
        cases hr : r.overview with
        | none => simp [hr, hsaid, Option.filter]
        | some s => simp [hr, Option.filter]

end Item

namespace Manager

/-- No result makes an item lose what it has: a field in which there is a value has one after
it, and so it does after any sequence of results that a refresh hears, whether the refresh
comes to its end or is cancelled.  A text in the overview may only be lost to a blank one,
and exactly when the first result has that and values are to be replaced. -/
theorem filled_fields_stay_filled :
    (∀ (item : Item) (r : MetadataResult) (overwrite : Bool),
      KeepsFilled item (r.applyTo overwrite item).1 ∧
        (item.described = true → ((r.applyTo overwrite item).1.described = false ↔
          overwrite = true ∧ ∃ s, r.overview = some s ∧ Text.blank s = true))) ∧
      ∀ (m : Manager σ) (item : Item) (options : RefreshOptions) (w : World σ),
        ∃ turns w' g, Round w (m.gathering item options) turns w' g ∧
          (m.gatherMetadata item options w = .ok (g.item, g.update) w' ∨
            m.gatherMetadata item options w = .error (.failed .cancelled) w') ∧
          KeepsFilled item g.item ∧
          (item.described = true → (g.item.described = false ↔
            (options.replaceMetadata && !item.locked) = true ∧
              ∃ r s, (turns.filterMap Turn.result?).head? = some r ∧ r.overview = some s ∧
                Text.blank s = true)) := by
  constructor
  · intro item r overwrite
    refine ⟨r.applyTo_keepsFilled overwrite item, fun hdescribed => ?_⟩
    have hone : (r.applyTo overwrite item).1.described = false ↔ _ :=
      Item.described_withResults hdescribed overwrite [r]
    simpa using hone
  · intro m item options w
    obtain ⟨turns, w', g, hround, hend⟩ := m.gatherMetadata_round item options w
    have hrun : m.gatherMetadata item options w = .ok (g.item, g.update) w' ∨
        m.gatherMetadata item options w = .error (.failed .cancelled) w' :=
      hend.imp And.left And.left
    refine ⟨turns, w', g, hround, hrun, ?_⟩
    have hitem : g.item = item.withResults (options.replaceMetadata && !item.locked)
        (turns.filterMap Turn.result?) := hround.item_eq
    rw [hitem]
    exact ⟨item.withResults_keepsFilled _ _, fun h => Item.described_withResults h _ _⟩

end Manager

/-! ## A blank overview -/

/-- A film with a text about it. -/
def toldFilm : Item :=
  { Item.bare .zero .movie "Alien" with overview := some "In space no one can hear you scream." }

/-- A result with a year and an overview without a text. -/
def untold : MetadataResult :=
  { MetadataResult.empty with overview := some " ", productionYear := some 1979 }

/-- A text in an overview may be lost. -/
theorem blank_overview_replaces_text :
    ¬ ∀ (item : Item) (r : MetadataResult) (overwrite : Bool),
      (∃ s, item.overview = some s ∧ Text.blank s = false) →
        ∃ s, (r.applyTo overwrite item).1.overview = some s ∧ Text.blank s = false := by
  intro h
  obtain ⟨s, hs, hsaid⟩ := h toldFilm untold true ⟨_, rfl, by decide⟩
  obtain rfl : " " = s := Option.some.inj hs
  exact absurd hsaid (by decide)

end MediaRefresh
