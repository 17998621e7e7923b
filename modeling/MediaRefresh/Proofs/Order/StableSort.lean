import Mathlib.Data.List.Pairwise

/-!
# Order: what a stable sort does

A stable sort puts an element before all those that must come behind it, keeps the order of
elements that tie, and takes no notice of elements that are left out.  Where no two elements
tie, the order in which they are given makes no difference.
-/

set_option autoImplicit false

namespace MediaRefresh

variable {α : Type}

theorem filter_filter_of_imp {kept taken : α → Bool} (l : List α)
    (h : ∀ a, taken a = true → kept a = true) : (l.filter kept).filter taken = l.filter taken := by
  rw [List.filter_filter]
  refine List.filter_congr fun a _ => ?_
  cases htaken : taken a with
  | false => rfl
  | true => rw [h a htaken, Bool.and_true]

theorem filter_filter_comm (p q : α → Bool) (l : List α) :
    (l.filter p).filter q = (l.filter q).filter p := by
  rw [List.filter_filter, List.filter_filter]
  exact List.filter_congr fun a _ => Bool.and_comm _ _

/-- Of two elements in the list of which one must come before the other, it does. -/
def Ranked (before : α → α → Prop) (l : List α) : Prop :=
  ∀ (i j : Nat) (a b : α), l[i]? = some a → l[j]? = some b → before a b → i < j

section Sorting

variable {le : α → α → Bool}
  (trans : ∀ a b c, le a b = true → le b c = true → le a c = true)
  (total : ∀ a b, (le a b || le b a) = true)

include trans total

/-- Where the first element of a list stands in the stable sort: behind those that must
stand before it. -/
theorem mergeSort_cons_eq (a : α) (l : List α) : (a :: l).mergeSort le =
    (l.mergeSort le).filter (fun b => !le a b) ++ a :: (l.mergeSort le).filter (le a) := by
  obtain ⟨front, back, hsorted, hrest, hfront⟩ := List.mergeSort_cons trans total a l
  have hpairwise := List.pairwise_mergeSort trans total (a :: l)
  rw [hsorted] at hpairwise
  have hback : ∀ b ∈ back, le a b = true := fun b hb =>
    List.rel_of_pairwise_cons (List.pairwise_append.mp hpairwise).2.1 hb
  have hnot : front.filter (le a) = [] :=
    List.filter_eq_nil_iff.mpr fun b hb => by simpa using hfront b hb
  have hnone : back.filter (fun b => !le a b) = [] :=
    List.filter_eq_nil_iff.mpr fun b hb => by simpa using hback b hb
  rw [hsorted, hrest, List.filter_append, List.filter_append, List.filter_eq_self.mpr hfront,
    List.filter_eq_self.mpr hback, hnot, hnone, List.append_nil, List.nil_append]

/-- What is left out of a list may as well be left out of its stable sort. -/
theorem filter_mergeSort_comm (keep : α → Bool) (l : List α) :
    (l.mergeSort le).filter keep = (l.filter keep).mergeSort le := by
  induction l with
  | nil => rw [List.mergeSort_nil, List.filter_nil, List.mergeSort_nil]
  | cons a rest ih =>
    cases hkeep : keep a with
    | true =>
      rw [mergeSort_cons_eq trans total, List.filter_append, List.filter_cons_of_pos hkeep,
        filter_filter_comm, filter_filter_comm _ keep, ih, List.filter_cons_of_pos hkeep,
        mergeSort_cons_eq trans total]
    | false =>
      have hdrop : ¬ keep a = true := by simp [hkeep]
      obtain ⟨front, back, hsorted, hrest, -⟩ := List.mergeSort_cons trans total a rest
      rw [hsorted, List.filter_append, List.filter_cons_of_neg hdrop, ← List.filter_append,
        ← hrest, ih, List.filter_cons_of_neg hdrop]

/-- Elements that tie with each other stay in the order in which they were given. -/
theorem filter_mergeSort_of_tied {keep : α → Bool}
    (h : ∀ a b, keep a = true → keep b = true → le a b = true) (l : List α) :
    (l.mergeSort le).filter keep = l.filter keep := by
  rw [filter_mergeSort_comm trans total]
  refine List.mergeSort_of_pairwise (List.pairwise_of_forall_mem_list fun a ha b hb => ?_)
  exact h a b (List.mem_filter.mp ha).2 (List.mem_filter.mp hb).2

/-- An element that may not stand behind another stands before it. -/
theorem ranked_mergeSort {before : α → α → Prop} (h : ∀ a b, before a b → le b a = false)
    (l : List α) : Ranked before (l.mergeSort le) := by
  intro i j a b ha hb hbefore
  have hnot : ¬ le b a = true := by simp [h a b hbefore]
  obtain ⟨hi, rfl⟩ := List.getElem?_eq_some_iff.mp ha
  obtain ⟨hj, rfl⟩ := List.getElem?_eq_some_iff.mp hb
  refine Nat.lt_of_not_le fun hle => hnot ?_
  obtain hlt | rfl := Nat.lt_or_eq_of_le hle
  · exact List.pairwise_iff_getElem.mp (List.pairwise_mergeSort trans total l) j i hj hi hlt
  · simpa using total (l.mergeSort le)[j] (l.mergeSort le)[j]

/-- Two lists of the same elements have the same stable sort if no two of them tie. -/
theorem mergeSort_eq_of_perm {l l' : List α} (hperm : l'.Perm l)
    (huntied : l.Pairwise fun a b => ¬ (le a b = true ∧ le b a = true)) :
    l'.mergeSort le = l.mergeSort le := by
  have : Std.Symm fun a b => ¬ (le a b = true ∧ le b a = true) := ⟨fun a b h hba => h hba.symm⟩
  refine List.Perm.eq_of_pairwise (fun a b ha hb hab hba => ?_)
    (List.pairwise_mergeSort trans total l') (List.pairwise_mergeSort trans total l)
    (((List.mergeSort_perm l' le).trans hperm).trans (List.mergeSort_perm l le).symm)
  have ha : a ∈ l := hperm.subset (List.mem_mergeSort.mp ha)
  by_contra hne
  exact huntied.forall ha (List.mem_mergeSort.mp hb) hne ⟨hab, hba⟩

end Sorting

/-- A stable sort sees only how the elements of its list compare. -/
theorem mergeSort_congr {le le' : α → α → Bool} {l : List α}
    (h : ∀ a ∈ l, ∀ b ∈ l, le a b = le' a b) : l.mergeSort le = l.mergeSort le' := by
  have hsorted := List.map_mergeSort (f := id) h
  rwa [List.map_id, List.map_id] at hsorted

end MediaRefresh
