import MediaRefresh.Proofs.Item.ExternalIds

/-!
# External ids: merging as a union

A merged bag has the entries of the first bag and, of each key in any case that is missing
there, the first entry of the other.  Which entries it has does not depend on how several bags
are put together, as long as their order stays, although a bag may hold several spellings of a
key and the entries come one at a time.
-/

set_option autoImplicit false

namespace MediaRefresh.ExternalIds

variable {ids other : ExternalIds} {key k : String} {e : String × String}

theorem contains_set (ids : ExternalIds) (key value k : String) :
    (ids.set key value).contains k = (ids.contains k || Text.same key k) := by
  rw [contains_eq_isSome, contains_eq_isSome]
  cases hsame : Text.same key k with
  | true => rw [ids.entry?_set_of_same value hsame, Option.isSome_some, Bool.or_true]
  | false => rw [ids.entry?_set_of_not_same value hsame, Bool.or_false]

/-- By induction on the entries that are merged.  An entry that is stored is from then on one
of those that keep out the later ones with its key. -/
theorem mem_mergeEntries (ids : ExternalIds) (es : List (String × String)) :
    e ∈ (ids.mergeEntries es).entries ↔ e ∈ ids.entries ∨
      ids.contains e.1 = false ∧ (es.find? fun x => Text.same x.1 e.1) = some e := by
  induction es generalizing ids with
  | nil => simp [mergeEntries]
  | cons x rest ih =>
    have hstep : ids.mergeEntries (x :: rest) =
        (if ids.contains x.1 then ids else ids.set x.1 x.2).mergeEntries rest := rfl
    rw [hstep, ih]
    cases hthere : ids.contains x.1 with
    | true =>
      rw [if_pos rfl]
      cases hsame : Text.same x.1 e.1 with
      | false => rw [List.find?_cons_of_neg (by simp [hsame])]
      | true =>
        have hcontains : ids.contains e.1 = true := by
          rw [← ids.contains_congr hsame, hthere]
        simp [hcontains]
    | false =>
      rw [if_neg Bool.false_ne_true, contains_set, mem_set_of_missing x.2 hthere]
      cases hsame : Text.same x.1 e.1 with
      | false =>
        have hne : e ≠ x := by
          rintro rfl
          rw [Text.same_refl] at hsame
          cases hsame
        rw [List.find?_cons_of_neg (by simp [hsame]), Bool.or_false, or_iff_left hne]
      | true =>
        have hmissing : ids.contains e.1 = false := by
          rw [← ids.contains_congr hsame, hthere]
        rw [List.find?_cons_of_pos (by exact hsame)]
        simp [hmissing, eq_comm]

theorem mem_mergeMissing_iff : e ∈ (ids.mergeMissing other).entries ↔
    e ∈ ids.entries ∨ ids.contains e.1 = false ∧ other.entry? e.1 = some e :=
  ids.mem_mergeEntries other.entries

/-- A key that is missing in the first two bags is one that is missing in both, and where the
second and the third are merged first, the second answers first. -/
theorem mergeMissing_assoc (a b c : ExternalIds) :
    (a.mergeMissing b).mergeMissing c = a.mergeMissing (b.mergeMissing c) := by
  refine eq_of_mem_iff fun e => ?_
  simp only [mem_mergeMissing_iff, contains_mergeMissing, entry?_mergeMissing,
    Bool.or_eq_false_iff, Option.or_eq_some_iff]
  rw [or_assoc, and_assoc, ← and_or_left, entry?_eq_none_iff]

/-- Merging what is missing is a union in which the first bag that has a key counts: the merged
bag has the entries of the first bag, unchanged, and under each key that is missing there the
first entry of the other.  It does not matter in which way three bags are put together in
their order, and what has been merged in adds nothing when it is merged again. -/
theorem merging_is_union (a b c : ExternalIds) :
    (∀ e, e ∈ (a.mergeMissing b).entries ↔
        e ∈ a.entries ∨ a.contains e.1 = false ∧ b.entry? e.1 = some e) ∧
      (∀ key, (a.mergeMissing b).contains key = (a.contains key || b.contains key)) ∧
      (a.mergeMissing b).mergeMissing c = a.mergeMissing (b.mergeMissing c) ∧
      a.mergeMissing a = a ∧
      (a.mergeMissing b).mergeMissing a = a.mergeMissing b := by
  refine ⟨fun e => mem_mergeMissing_iff, contains_mergeMissing a b, mergeMissing_assoc a b c,
    mergeMissing_eq_self_iff.mpr fun e he => contains_of_mem he,
    mergeMissing_eq_self_iff.mpr fun e he => ?_⟩
  rw [contains_mergeMissing, contains_of_mem he, Bool.true_or]

/-- Of two spellings that come with the second bag the first in order is taken. -/
example :
    ((collect [("Tmdb", "1")]).mergeMissing
      (ofEntries [("imdb", "tt2"), ("TMDB", "3"), ("IMDB", "tt4")])).entries =
      [("IMDB", "tt4"), ("Tmdb", "1")] := by
  decide

end MediaRefresh.ExternalIds
