import MediaRefresh.Proofs.Metadata.Merge

/-!
# Metadata: what a merge reports

A merge says of each field whether it has written it.  A field that it says nothing of is
as it was, and what has settled already is not written; between the two, the report is
exact: it says that the item has changed when it has, and only then.
-/

set_option autoImplicit false

namespace MediaRefresh

open Numeric

/-! ## Fields of which nothing is reported -/

section Unchanged

variable {overwrite : Bool}

theorem mergeField_of_unchanged {α : Type} {same : α → α → Bool} {target source : Option α}
    (h : (mergeField same overwrite target source).2 = false) :
    (mergeField same overwrite target source).1 = target := by
  unfold mergeField at h ⊢
  cases source with
  | none => rfl
  | some v =>
    dsimp only at h ⊢
    split at h
    · cases h
    · rename_i hkept
      rw [if_neg hkept]

theorem mergeName_of_unchanged {target : String} {source : Option String}
    (h : (mergeName overwrite target source).2 = false) :
    (mergeName overwrite target source).1 = target := by
  unfold mergeName at h ⊢
  cases source with
  | none => rfl
  | some n =>
    dsimp only at h ⊢
    split at h
    · cases h
    · rename_i hkept
      rw [if_neg hkept]

theorem mergeGenres_of_unchanged {target source : List String}
    (h : (mergeGenres overwrite target source).2 = false) :
    (mergeGenres overwrite target source).1 = target := by
  unfold mergeGenres at h ⊢
  split at h
  · cases h
  · rename_i hkept
    rw [if_neg hkept]

/-- An id that is stored is reported, whatever has been reported before. -/
theorem mergeId_of_unchanged {acc : ExternalIds × Bool} {e : String × String}
    (h : (mergeId overwrite acc e).2 = false) : mergeId overwrite acc e = acc := by
  unfold mergeId at h ⊢
  split at h
  · rename_i hempty
    rw [if_pos hempty]
  · rename_i hvalue
    rw [if_neg hvalue]
    dsimp only at h ⊢
    split at h
    · cases h
    · rename_i hkept
      rw [if_neg hkept]

/-- By induction on the entries: what has been reported stays reported, so that none of them
has been stored. -/
theorem foldl_mergeId_of_unchanged {acc : ExternalIds × Bool} {es : List (String × String)}
    (h : (es.foldl (mergeId overwrite) acc).2 = false) :
    es.foldl (mergeId overwrite) acc = acc := by
  induction es generalizing acc with
  | nil => rfl
  | cons e rest ih =>
    rw [List.foldl_cons] at h ⊢
    have hrest := ih h
    rw [hrest] at h ⊢
    exact mergeId_of_unchanged h

end Unchanged

/-! ## The report on an item -/

namespace MetadataResult

variable {r : MetadataResult} {overwrite : Bool} {item : Item}

theorem applyTo_of_unchanged (h : (r.applyTo overwrite item).2 = false) :
    (r.applyTo overwrite item).1 = item := by
  unfold applyTo at h ⊢
  simp only [Bool.or_eq_false_iff] at h ⊢
  obtain ⟨⟨⟨⟨⟨⟨hname, hoverview⟩, hyear⟩, hdate⟩, hrating⟩, hgenres⟩, hids⟩ := h
  rw [mergeName_of_unchanged hname, mergeField_of_unchanged hoverview,
    mergeField_of_unchanged hyear, mergeField_of_unchanged hdate,
    mergeField_of_unchanged hrating, mergeGenres_of_unchanged hgenres,
    foldl_mergeId_of_unchanged hids]

/-- Only metadata is changed. -/
theorem applyTo_withMetadataOf (r : MetadataResult) (overwrite : Bool) (item : Item) :
    (r.applyTo overwrite item).1 = item.withMetadataOf (r.applyTo overwrite item).1 := rfl

/-- An item whose fields are as before, as far as equality tells, has not been written. -/
theorem applyTo_of_fields_eq (hr : r.WellFormed)
    (h : ∀ f : MetadataField, f.plain (f.ofItem (r.applyTo overwrite item).1) =
      f.plain (f.ofItem item)) : r.applyTo overwrite item = (item, false) := by
  have hfollows : Follows overwrite item [r] (r.applyTo overwrite item).1 :=
    applyTo_follows hr.ids
  apply applyTo_of_follows hr
  intro f
  rw [← hfollows f, h f]

/-- A merge reports a change exactly when the item is another one afterwards, and exactly when
a field of it is, as far as equality tells.  The same result finds nothing to change a second
time, and nothing but metadata is ever changed. -/
theorem change_reported_exactly (hr : r.WellFormed) (overwrite : Bool) (item : Item) :
    let merged := r.applyTo overwrite item
    (merged.2 = true ↔ merged.1 ≠ item) ∧
      (merged.2 = true ↔
        ∃ f : MetadataField, f.plain (f.ofItem merged.1) ≠ f.plain (f.ofItem item)) ∧
      r.applyTo overwrite merged.1 = (merged.1, false) ∧
      merged.1 = item.withMetadataOf merged.1 := by
  intro merged
  have hfields : merged.2 = true →
      ∃ f : MetadataField, f.plain (f.ofItem merged.1) ≠ f.plain (f.ofItem item) := by
    intro hchanged
    apply Classical.byContradiction
    intro hsame
    have hnothing : merged = (item, false) :=
      applyTo_of_fields_eq hr fun f => Classical.not_not.mp (not_exists.mp hsame f)
    rw [hnothing] at hchanged
    cases hchanged
  have hdiffers : (∃ f : MetadataField, f.plain (f.ofItem merged.1) ≠ f.plain (f.ofItem item)) →
      merged.1 ≠ item := by
    rintro ⟨f, hf⟩ hsame
    rw [hsame] at hf
    exact hf rfl
  have hreported : merged.1 ≠ item → merged.2 = true := by
    intro hother
    apply Bool.of_not_eq_false
    intro hsilent
    exact hother (applyTo_of_unchanged hsilent)
  refine ⟨⟨fun h => hdiffers (hfields h), hreported⟩,
    ⟨hfields, fun h => hreported (hdiffers h)⟩, ?_, applyTo_withMetadataOf r overwrite item⟩
  have hfollows : Follows overwrite item [r] merged.1 := applyTo_follows hr.ids
  exact applyTo_of_follows hr hfollows.again

/-- A result with a blank name, a zero with a sign, another id and an empty one. -/
def nearlyKnown : MetadataResult :=
  { MetadataResult.empty with
    name := some "\u3000"
    communityRating := some (.ofMagnitude true 0)
    externalIds := .collect [("IMDB", "tt0090605"), ("Tmdb", "")] }

/-- The item that the result is about, with an id of another film. -/
def misfiled : Item :=
  { Item.bare .zero .movie "Aliens" with
    communityRating := some .zero
    externalIds := .collect [("Imdb", "tt0078748"), ("Tmdb", "679")] }

/-- The id is replaced, and neither the blank name nor the sign of the rating counts. -/
theorem misfiled_id_reported :
    nearlyKnown.WellFormed ∧ (nearlyKnown.applyTo true misfiled).2 = true ∧
      (nearlyKnown.applyTo true misfiled).1.communityRating = some .zero ∧
      (nearlyKnown.applyTo true (nearlyKnown.applyTo true misfiled).1).2 = false := by
  have hwell : nearlyKnown.WellFormed := by
    refine ⟨?_, by decide⟩
    intro x hx
    obtain rfl := Option.some.inj hx
    decide
  obtain ⟨-, hreport, hagain, -⟩ := change_reported_exactly hwell true misfiled
  have hid : (nearlyKnown.applyTo true misfiled).1.externalIds.get "imdb" ≠
      misfiled.externalIds.get "imdb" := by decide
  exact ⟨hwell, hreport.mpr ⟨.externalId "imdb", hid⟩, by decide, congrArg Prod.snd hagain⟩

end MetadataResult

end MediaRefresh
