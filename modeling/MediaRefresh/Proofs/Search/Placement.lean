import MediaRefresh.Search.Merge
import Mathlib.Data.List.Basic
import Mathlib.Data.List.Induction

/-!
# Search: where each hit goes

Hits are merged one after the other.  Each goes to a place: that of the first entry that
shares an id with it as the entries then stand, or a new one behind all.  The entry at a
place is made of the hits that went there (`getElem?_mergeAll`), and this is all that later
proofs use of the scan.
-/

set_option autoImplicit false

namespace MediaRefresh

namespace SearchHit

/-- The list that a sequence of hits is merged into. -/
def mergeAll (hits : List SearchHit) : List SearchHit :=
  hits.foldl (fun kept hit => keep hit kept) []

/-- The place that a hit goes to: that of the first kept one that shares an id with it, or
the next free one. -/
def place (hit : SearchHit) (kept : List SearchHit) : Nat := kept.findIdx (·.sharesId hit)

/-- The kept hits as they stand when it is the turn of the hit at `i`. -/
def standing (hits : List SearchHit) (i : Nat) : List SearchHit := mergeAll (hits.take i)

/-- The place that the hit at `i` goes to. -/
def home? (hits : List SearchHit) (i : Nat) : Option Nat :=
  hits[i]?.map fun hit => place hit (standing hits i)

/-- The hits that go to the place `j`, in order. -/
def members (hits : List SearchHit) (j : Nat) : List SearchHit :=
  (List.range hits.length).filterMap fun i => if home? hits i = some j then hits[i]? else none

/-- Where the hits stand that share an id with none of those kept before them, in order. -/
def founders (hits : List SearchHit) : List Nat :=
  (List.range hits.length).filter fun i =>
    (standing hits i).all fun kept => hits[i]?.all fun hit => !kept.sharesId hit

/-- Hits taken for one title, made one. -/
def united : List SearchHit → Option SearchHit
  | [] => none
  | hit :: rest => some (rest.foldl absorb hit)

variable {kept hits more : List SearchHit} {hit entry : SearchHit} {i j : Nat}

/-! ## One more hit -/

theorem getElem?_keep (hit : SearchHit) (kept : List SearchHit) (j : Nat) :
    (keep hit kept)[j]? =
      if j = place hit kept then some (kept[j]?.elim hit (·.absorb hit)) else kept[j]? := by
  unfold place
  induction kept generalizing j with
  | nil =>
    cases j with
    | zero => rfl
    | succ j => rfl
  | cons first rest ih =>
    unfold keep
    rw [List.findIdx_cons]
    cases hshares : first.sharesId hit with
    | true =>
      cases j with
      | zero => rfl
      | succ j => rfl
    | false =>
      cases j with
      | zero => rfl
      | succ j =>
        have hrest := ih j
        simpa using hrest

theorem mergeAll_append_singleton (hits : List SearchHit) (hit : SearchHit) :
    mergeAll (hits ++ [hit]) = keep hit (mergeAll hits) := List.foldl_append

theorem united_append_singleton (hits : List SearchHit) (hit : SearchHit) :
    united (hits ++ [hit]) = some ((united hits).elim hit (·.absorb hit)) := by
  cases hits with
  | nil => rfl
  | cons first rest => exact congrArg some List.foldl_append

theorem standing_append (hits more : List SearchHit) (h : i ≤ hits.length) :
    standing (hits ++ more) i = standing hits i := by
  unfold standing
  rw [List.take_append_of_le_length h]

theorem standing_length (hits : List SearchHit) : standing hits hits.length = mergeAll hits := by
  unfold standing
  rw [List.take_length]

/-- A turn adds the hit whose turn it is. -/
theorem standing_succ (h : hits[i]? = some hit) :
    standing hits (i + 1) = keep hit (standing hits i) := by
  unfold standing
  rw [List.take_add_one, h, Option.toList_some, mergeAll_append_singleton]

theorem home?_append (more : List SearchHit) (h : i < hits.length) :
    home? (hits ++ more) i = home? hits i := by
  unfold home?
  rw [List.getElem?_append_left h, standing_append hits more (Nat.le_of_lt h)]

theorem home?_append_singleton (hits : List SearchHit) (hit : SearchHit) :
    home? (hits ++ [hit]) hits.length = some (place hit (mergeAll hits)) := by
  unfold home?
  rw [standing_append hits [hit] (Nat.le_refl _), standing_length,
    List.getElem?_append_right (Nat.le_refl _)]
  simp

theorem members_append_singleton (hits : List SearchHit) (hit : SearchHit) (j : Nat) :
    members (hits ++ [hit]) j =
      members hits j ++ if place hit (mergeAll hits) = j then [hit] else [] := by
  unfold members
  rw [List.length_append, List.length_singleton, List.range_succ, List.filterMap_append]
  congr 1
  · refine List.filterMap_congr fun i hi => ?_
    have hlt : i < hits.length := List.mem_range.mp hi
    rw [home?_append [hit] hlt, List.getElem?_append_left hlt]
  · rw [List.filterMap_cons, home?_append_singleton, List.getElem?_append_right (Nat.le_refl _)]
    by_cases hplace : place hit (mergeAll hits) = j
    · simp [hplace]
    · simp [hplace]

/-- The entry at a place is made of the hits that went there. -/
theorem getElem?_mergeAll (hits : List SearchHit) (j : Nat) :
    (mergeAll hits)[j]? = united (members hits j) := by
  induction hits using List.reverseRecOn with
  | nil => rfl
  | append_singleton hits hit ih =>
    rw [mergeAll_append_singleton, getElem?_keep, members_append_singleton]
    by_cases hplace : j = place hit (mergeAll hits)
    · rw [if_pos hplace, if_pos hplace.symm, united_append_singleton, ih]
    · rw [if_neg hplace, if_neg (Ne.symm hplace), List.append_nil, ih]

theorem united_eq_none_iff : united hits = none ↔ hits = [] := by
  cases hits with
  | nil => simp [united]
  | cons hit rest => simp [united]

/-! ## Which hits found an entry -/

theorem place_le_length (hit : SearchHit) (kept : List SearchHit) :
    place hit kept ≤ kept.length := List.findIdx_le_length

theorem sharesId_of_place (h : kept[place hit kept]? = some entry) :
    entry.sharesId hit = true := by
  obtain ⟨_, rfl⟩ := List.getElem?_eq_some_iff.mp h
  exact List.findIdx_getElem (p := fun k : SearchHit => k.sharesId hit)

theorem not_sharesId_of_lt_place (hj : j < place hit kept) (h : kept[j]? = some entry) :
    entry.sharesId hit = false := by
  obtain ⟨_, rfl⟩ := List.getElem?_eq_some_iff.mp h
  exact List.not_of_lt_findIdx hj

/-- A hit that shares an id with none goes behind all. -/
theorem place_eq_length_iff :
    place hit kept = kept.length ↔ (kept.all fun k => !k.sharesId hit) = true := by
  unfold place
  rw [List.findIdx_eq_length]
  simp

theorem length_keep (hit : SearchHit) (kept : List SearchHit) :
    (keep hit kept).length =
      kept.length + if place hit kept = kept.length then 1 else 0 := by
  unfold place
  induction kept with
  | nil => rfl
  | cons first rest ih =>
    unfold keep
    rw [List.findIdx_cons]
    cases hshares : first.sharesId hit with
    | true => simp
    | false =>
      simp only [Bool.false_eq_true, ite_false, cond_false, List.length_cons, ih,
        Nat.add_right_cancel_iff]
      omega

theorem founders_append_singleton (hits : List SearchHit) (hit : SearchHit) :
    founders (hits ++ [hit]) =
      founders hits ++ if place hit (mergeAll hits) = (mergeAll hits).length then [hits.length]
        else [] := by
  unfold founders
  rw [List.length_append, List.length_singleton, List.range_succ, List.filter_append]
  congr 1
  · refine List.filter_congr fun i hi => ?_
    have hlt : i < hits.length := List.mem_range.mp hi
    rw [standing_append hits [hit] (Nat.le_of_lt hlt), List.getElem?_append_left hlt]
  · have hlast : (hits ++ [hit])[hits.length]? = some hit := by simp
    rw [List.filter_cons, List.filter_nil, standing_append hits [hit] (Nat.le_refl _),
      standing_length, hlast]
    simp only [place_eq_length_iff, Option.all_some]

/-- There is one entry for each hit that founds one. -/
theorem length_founders (hits : List SearchHit) :
    (founders hits).length = (mergeAll hits).length := by
  induction hits using List.reverseRecOn with
  | nil => rfl
  | append_singleton hits hit ih =>
    rw [founders_append_singleton, mergeAll_append_singleton, length_keep, List.length_append, ih]
    split
    · rfl
    · rfl

/-- The entry at a place is founded by the first hit that goes there. -/
theorem members_of_founder (h : (founders hits)[j]? = some i) :
    home? hits i = some j ∧ ∃ hit rest, hits[i]? = some hit ∧ members hits j = hit :: rest := by
  induction hits using List.reverseRecOn with
  | nil => cases h
  | append_singleton hits hit ih =>
    rw [founders_append_singleton, List.getElem?_append] at h
    split at h
    · obtain ⟨hhome, first, rest, hfirst, hmembers⟩ := ih h
      have hi : i < hits.length := (List.getElem?_eq_some_iff.mp hfirst).1
      refine ⟨by rw [home?_append [hit] hi, hhome], first, ?_⟩
      rw [List.getElem?_append_left hi, members_append_singleton, hmembers]
      exact ⟨_, hfirst, rfl⟩
    · rename_i hj
      split at h
      · rename_i hplace
        have hnew : j = (mergeAll hits).length ∧ i = hits.length := by
          rw [List.getElem?_singleton] at h
          split at h
          · rw [length_founders] at *
            exact ⟨by omega, (Option.some.inj h).symm⟩
          · cases h
        obtain ⟨rfl, rfl⟩ := hnew
        have hempty : members hits (mergeAll hits).length = [] := by
          rw [← united_eq_none_iff, ← getElem?_mergeAll, List.getElem?_eq_none (Nat.le_refl _)]
        refine ⟨by rw [home?_append_singleton, hplace], hit, [], by simp, ?_⟩
        rw [members_append_singleton, hempty, if_pos hplace]
        rfl
      · cases h

end SearchHit

end MediaRefresh
