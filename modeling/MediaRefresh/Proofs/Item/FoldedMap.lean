import MediaRefresh.Proofs.Item.ExternalIds
import Mathlib.Data.Finset.Card

/-!
# External ids: a bag as a map from keys in any case

A bag is made by storing ids and by merging other bags into it, which may hold several
spellings of a key.  Beside the bag stand the entries that it was offered and those that were
stored, in order: every entry that is set, and of the merged ones those whose key was not there
yet.  Under each key the bag has the spelling that was offered first and the id that was stored
last, and it never has two spellings of a key.
-/

set_option autoImplicit false

namespace MediaRefresh.ExternalIds

/-! ## Calls that change a bag -/

/-- A call that changes a bag. -/
inductive BagCall where
  /-- an id is stored under a key -/
  | set (key value : String)
  /-- the entries of another bag are added where they are missing -/
  | merge (other : ExternalIds)

/-- The entries under a key, in any case and in order. -/
def under (key : String) (es : List (String × String)) : List (String × String) :=
  es.filter fun e => Text.same e.1 key

/-- What has been stored, with a merged entry if nothing was stored under its key before. -/
def storeMissing (stored : List (String × String)) (e : String × String) :
    List (String × String) :=
  if under e.1 stored = [] then stored ++ [e] else stored

namespace BagCall

/-- The bag after a call. -/
def perform (ids : ExternalIds) : BagCall → ExternalIds
  | set key value => ids.set key value
  | merge other => ids.mergeMissing other

/-- The entries that a call offers. -/
def offered : BagCall → List (String × String)
  | set key value => [(key, value)]
  | merge other => other.entries

/-- What has been stored after a call. -/
def record (stored : List (String × String)) : BagCall → List (String × String)
  | set key value => stored ++ [(key, value)]
  | merge other => other.entries.foldl storeMissing stored

end BagCall

variable {ids : ExternalIds} {key k value : String} {offered stored : List (String × String)}

theorem under_append_singleton (key : String) (es : List (String × String))
    (e : String × String) :
    under key (es ++ [e]) = under key es ++ if Text.same e.1 key then [e] else [] := by
  unfold under
  rw [List.filter_append, List.filter_singleton]
  cases Text.same e.1 key with
  | true => rfl
  | false => rfl

theorem head?_under (key : String) (es : List (String × String)) :
    (under key es).head?.map Prod.fst = (es.map Prod.fst).find? (Text.same · key) := by
  unfold under
  rw [List.head?_filter, List.find?_map]
  rfl

/-! ## What the history of a bag tells -/

/-- Under each key in any case the bag has the spelling that was offered first and the id that
was stored last, and it has one spelling of each key. -/
structure Tells (offered stored : List (String × String)) (ids : ExternalIds) : Prop where
  unambiguous : ids.Unambiguous
  spelling : ∀ key, (ids.entry? key).map Prod.fst = (under key offered).head?.map Prod.fst
  value : ∀ key, (ids.entry? key).map Prod.snd = (under key stored).getLast?.map Prod.snd

theorem tells_empty : Tells [] [] empty := ⟨.nil, fun _ => rfl, fun _ => rfl⟩

namespace Tells

theorem contains_iff (h : Tells offered stored ids) :
    ids.contains key = true ↔ ∃ e ∈ offered, Text.same e.1 key = true := by
  have hspelling := congrArg Option.isSome (h.spelling key)
  rw [Option.isSome_map, Option.isSome_map] at hspelling
  rw [contains_eq_isSome, hspelling, under, List.head?_filter, List.find?_isSome]

theorem under_stored_eq_nil_iff (h : Tells offered stored ids) :
    under key stored = [] ↔ ids.contains key = false := by
  have hvalue := congrArg Option.isSome (h.value key)
  rw [Option.isSome_map, Option.isSome_map] at hvalue
  rw [contains_eq_isSome, hvalue, Option.isSome_eq_false_iff, Option.isNone_iff_eq_none,
    List.getLast?_eq_none_iff]

/-- Under the key that an id is stored under the spelling stays that of the first entry, which
may be the new one.  Under other keys nothing changes. -/
theorem set (h : Tells offered stored ids) (key value : String) :
    Tells (offered ++ [(key, value)]) (stored ++ [(key, value)]) (ids.set key value) where
  unambiguous := h.unambiguous.set key value
  spelling k := by
    rw [under_append_singleton]
    cases hsame : Text.same key k with
    | false => rw [ids.entry?_set_of_not_same value hsame, h.spelling]; simp
    | true =>
      have hspelling : ids.spelling key = ((under k offered).head?.map Prod.fst).getD key := by
        unfold ExternalIds.spelling
        rw [ids.entry?_congr hsame, h.spelling]
      rw [ids.entry?_set_of_same value hsame, hspelling, List.head?_append]
      cases (under k offered).head? with
      | none => rfl
      | some first => rfl
  value k := by
    rw [under_append_singleton]
    cases hsame : Text.same key k with
    | false => rw [ids.entry?_set_of_not_same value hsame, h.value]; simp
    | true => rw [ids.entry?_set_of_same value hsame]; simp

/-- An entry whose key is there changes neither spelling nor id. -/
theorem pass {e : String × String} (h : Tells offered stored ids)
    (hcontains : ids.contains e.1 = true) : Tells (offered ++ [e]) stored ids where
  unambiguous := h.unambiguous
  spelling key := by
    rw [h.spelling, under_append_singleton, List.head?_append]
    cases hfirst : (under key offered).head? with
    | some first => rfl
    | none =>
      have hmissing := h.spelling key
      rw [hfirst, Option.map_none, Option.map_eq_none_iff] at hmissing
      cases hsame : Text.same e.1 key with
      | false => rfl
      | true =>
        rw [ids.contains_congr hsame, entry?_eq_none_iff.mp hmissing] at hcontains
        cases hcontains
  value := h.value

/-- By induction on the entries that are merged. -/
theorem mergeEntries (h : Tells offered stored ids) (es : List (String × String)) :
    Tells (offered ++ es) (es.foldl storeMissing stored) (ids.mergeEntries es) := by
  induction es generalizing ids offered stored with
  | nil => rwa [List.append_nil]
  | cons e rest ih =>
    have hsplit : offered ++ e :: rest = (offered ++ [e]) ++ rest := by simp
    have hstep : ids.mergeEntries (e :: rest) =
        (if ids.contains e.1 then ids else ids.set e.1 e.2).mergeEntries rest := rfl
    rw [hsplit, hstep, List.foldl_cons]
    apply ih
    unfold storeMissing
    cases hcontains : ids.contains e.1 with
    | true =>
      have hstored : under e.1 stored ≠ [] := by simp [h.under_stored_eq_nil_iff, hcontains]
      rw [if_neg hstored]
      exact h.pass hcontains
    | false =>
      rw [if_pos (h.under_stored_eq_nil_iff.mpr hcontains)]
      exact h.set e.1 e.2

theorem perform (h : Tells offered stored ids) (call : BagCall) :
    Tells (offered ++ call.offered) (call.record stored) (call.perform ids) := by
  cases call with
  | set key value => exact h.set key value
  | merge other => exact h.mergeEntries other.entries

theorem performAll (h : Tells offered stored ids) (calls : List BagCall) :
    Tells (offered ++ calls.flatMap BagCall.offered) (calls.foldl BagCall.record stored)
      (calls.foldl BagCall.perform ids) := by
  induction calls generalizing ids offered stored with
  | nil => rwa [List.flatMap_nil, List.append_nil]
  | cons call rest ih =>
    rw [List.flatMap_cons, ← List.append_assoc]
    exact ih (h.perform call)

/-- Every offered key in any case stands for one entry. -/
theorem size_eq (h : Tells offered stored ids) :
    ids.size = (offered.map fun e => Text.fold e.1).toFinset.card := by
  have hnodup : (ids.entries.map fun e => Text.fold e.1).Nodup := by
    refine List.pairwise_map.mpr (h.unambiguous.imp fun hsame heq => ?_)
    rw [Text.same_iff.mpr heq] at hsame
    cases hsame
  have hkeys : (offered.map fun e => Text.fold e.1).toFinset =
      (ids.entries.map fun e => Text.fold e.1).toFinset := by
    ext s
    simp only [List.mem_toFinset, List.mem_map]
    constructor
    · rintro ⟨e, he, rfl⟩
      obtain ⟨found, hfound, hsame⟩ :=
        List.any_eq_true.mp (h.contains_iff.mpr ⟨e, he, Text.same_refl e.1⟩)
      exact ⟨found, hfound, Text.same_iff.mp hsame⟩
    · rintro ⟨e, he, rfl⟩
      obtain ⟨found, hfound, hsame⟩ := h.contains_iff.mp (contains_of_mem he)
      exact ⟨found, hfound, Text.same_iff.mp hsame⟩
  rw [hkeys, List.toFinset_card_of_nodup hnodup, List.length_map]
  rfl

end Tells

theorem tells_collect (pairs : List (String × String)) : Tells pairs pairs (collect pairs) := by
  induction pairs using List.reverseRecOn with
  | nil => exact tells_empty
  | append_singleton rest e ih =>
    have hlast : collect (rest ++ [e]) = (collect rest).set e.1 e.2 := List.foldl_append
    rw [hlast]
    exact ih.set e.1 e.2

/-! ## The law of the map -/

/-- Whatever ids are stored and whatever bags are merged, starting from a list of pairs, a bag
is a map from keys in any case: no two of its keys differ only in case, it has the spelling
under which each key was offered first, its keys are those that were offered, and a key
answers with the id that was stored last under it, or with none if that id is empty.  Storing
one more id changes the answer under its own key only. -/
theorem calls_make_a_map (pairs : List (String × String)) (calls : List BagCall) :
    let ids := calls.foldl BagCall.perform (collect pairs)
    let keys := (pairs ++ calls.flatMap BagCall.offered).map Prod.fst
    let stored := calls.foldl BagCall.record pairs
    ids.Unambiguous ∧
      (∀ key, (ids.entry? key).map Prod.fst = keys.find? (Text.same · key)) ∧
      (∀ key, ids.contains key = keys.any (Text.same · key)) ∧
      ids.size = (keys.map Text.fold).toFinset.card ∧
      (∀ key, ids.get key = ((under key stored).getLast?.map Prod.snd).filter (· ≠ "")) ∧
      ∀ key value other, (ids.set key value).get other =
        if Text.same key other then (some value).filter (· ≠ "") else ids.get other := by
  intro ids keys stored
  have h : Tells (pairs ++ calls.flatMap BagCall.offered) stored ids :=
    (tells_collect pairs).performAll calls
  refine ⟨h.unambiguous, fun key => ?_, fun key => ?_, ?_, fun key => ?_, ?_⟩
  · rw [h.spelling, head?_under]
  · rw [Bool.eq_iff_iff, h.contains_iff, List.any_map, List.any_eq_true]
    rfl
  · rw [h.size_eq, List.map_map]
    rfl
  · unfold get
    rw [h.value]
  · intro key value other
    unfold get
    cases hsame : Text.same key other with
    | true => rw [ids.entry?_set_of_same value hsame]; rfl
    | false => rw [ids.entry?_set_of_not_same value hsame]; rfl

end MediaRefresh.ExternalIds
