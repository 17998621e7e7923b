import MediaRefresh.Text.Blank
import MediaRefresh.Text.Cut
import MediaRefresh.Text.Folding
import Mathlib.Data.List.DropRight

/-!
# Text: what cutting, trimming and folding leave

A text is cut in front of the first character that stops it and behind the last mark in it.
Trimming and small letters do not get in each other's way, neither does anything the second
time, and neither brings in a character that was not there before, but for small letters.
-/

set_option autoImplicit false

namespace MediaRefresh.Text

/-! ## Small letters -/

theorem toNat_toLower (c : Char) :
    c.toLower.toNat = if 65 ≤ c.toNat ∧ c.toNat ≤ 90 then c.toNat + 32 else c.toNat := by
  have hcapital : (c.val ≥ 'A'.val ∧ c.val ≤ 'Z'.val) ↔ 65 ≤ c.toNat ∧ c.toNat ≤ 90 :=
    and_congr UInt32.le_iff_toNat_le UInt32.le_iff_toNat_le
  unfold Char.toLower
  split
  · rename_i h
    have hc := hcapital.mp h
    rw [if_pos hc]
    change (c.val + 32).toNat = c.val.toNat + 32
    rw [UInt32.toNat_add]
    change (c.toNat + 32) % 4294967296 = c.toNat + 32
    omega
  · rename_i h
    rw [if_neg (mt hcapital.mpr h)]

theorem isBlank_toLower (c : Char) : isBlank c.toLower = isBlank c := by
  have hlower := toNat_toLower c
  rw [Bool.eq_iff_iff]
  simp only [isBlank, blankRanges, List.any_cons, List.any_nil, Bool.or_false, Bool.or_eq_true,
    Bool.and_eq_true, decide_eq_true_eq]
  split at hlower <;> omega

/-- A semicolon comes from a semicolon. -/
theorem toLower_eq_semicolon {c : Char} (h : c.toLower = ';') : c = ';' := by
  have hlower := toNat_toLower c
  rw [h] at hlower
  apply Char.toNat_inj.mp
  have hmark : ';'.toNat = 59 := rfl
  split at hlower <;> omega

@[simp] theorem toList_fold (s : String) : (fold s).toList = s.toList.map Char.toLower :=
  String.toList_ofList

@[simp] theorem toList_trim (s : String) : (trim s).toList = trimChars s.toList :=
  String.toList_ofList

@[simp] theorem toList_before (stops : Char → Bool) (s : String) :
    (before stops s).toList = s.toList.takeWhile fun c => !stops c :=
  String.toList_ofList

/-! ## Trimming -/

theorem trimChars_eq (cs : List Char) :
    trimChars cs = (cs.dropWhile isBlank).rdropWhile isBlank := rfl

theorem trimChars_subset (cs : List Char) : trimChars cs ⊆ cs := fun _ hc =>
  List.dropWhile_subset isBlank ((List.rdropWhile_prefix isBlank _).subset hc)

/-- What is left begins as the text without its blank front, and so not with a blank. -/
theorem trimChars_trimChars (cs : List Char) : trimChars (trimChars cs) = trimChars cs := by
  have hfront : (trimChars cs).dropWhile isBlank = trimChars cs := by
    rw [List.dropWhile_eq_self_iff]
    intro hlong
    have hleft : trimChars cs <+: cs.dropWhile isBlank := List.rdropWhile_prefix isBlank _
    rw [hleft.getElem hlong]
    exact List.dropWhile_get_zero_not isBlank cs (Nat.lt_of_lt_of_le hlong hleft.length_le)
  rw [trimChars_eq (trimChars cs), hfront, trimChars_eq, List.rdropWhile_idempotent]

@[simp] theorem trim_trim (s : String) : trim (trim s) = trim s := by
  rw [← String.toList_inj, toList_trim, toList_trim, trimChars_trimChars]

theorem trimChars_map_toLower (cs : List Char) :
    trimChars (cs.map Char.toLower) = (trimChars cs).map Char.toLower := by
  have hblank : isBlank ∘ Char.toLower = isBlank := funext isBlank_toLower
  unfold trimChars
  rw [List.dropWhile_map, hblank, ← List.map_reverse, List.dropWhile_map, hblank,
    ← List.map_reverse]

theorem trim_fold (s : String) : trim (fold s) = fold (trim s) := by
  rw [← String.toList_inj, toList_trim, toList_fold, toList_fold, toList_trim,
    trimChars_map_toLower]

/-! ## Cutting in front of the first stop -/

theorem before_eq_self {stops : Char → Bool} {s : String}
    (h : ∀ c ∈ s.toList, stops c = false) : before stops s = s := by
  rw [← String.toList_inj, toList_before, List.takeWhile_eq_self_iff]
  intro c hc
  rw [h c hc, Bool.not_false]

theorem before_append {stops : Char → Bool} {s rest : String}
    (h : ∀ c ∈ s.toList, stops c = false) (hrest : ∀ c ∈ rest.toList.head?, stops c = true) :
    before stops (s ++ rest) = s := by
  rw [← String.toList_inj, toList_before, String.toList_append,
    List.takeWhile_append_of_pos fun c hc => by rw [h c hc, Bool.not_false]]
  have hnone : rest.toList.takeWhile (fun c => !stops c) = [] := by
    rw [List.takeWhile_eq_nil_iff]
    intro hlong
    have hhead : rest.toList.head? = some rest.toList[0] := by
      rw [List.head?_eq_getElem?, List.getElem?_eq_getElem hlong]
    simp [hrest _ hhead]
  rw [hnone, List.append_nil]

theorem not_stops_of_mem_before {stops : Char → Bool} {s : String} {c : Char}
    (h : c ∈ (before stops s).toList) : stops c = false := by
  rw [toList_before] at h
  simpa using List.mem_takeWhile_imp h

/-- What is cut off begins with a stop. -/
theorem exists_before_append (stops : Char → Bool) (s : String) :
    ∃ rest, s = before stops s ++ rest ∧ ∀ c ∈ rest.toList.head?, stops c = true := by
  refine ⟨String.ofList (s.toList.dropWhile fun c => !stops c), ?_, fun c hc => ?_⟩
  · rw [← String.toList_inj, String.toList_append, toList_before, String.toList_ofList,
      List.takeWhile_append_dropWhile]
  · have hfirst := List.head?_dropWhile_not (fun c => !stops c) s.toList
    rw [String.toList_ofList] at hc
    rw [Option.mem_def.mp hc] at hfirst
    simpa using hfirst

/-! ## Cutting behind the last mark -/

theorem afterLastChars_append {mark : Char} {front back : List Char} (h : mark ∉ back) :
    afterLastChars mark (front ++ mark :: back) = some back := by
  have hreverse : (front ++ mark :: back).reverse = back.reverse ++ mark :: front.reverse := by
    simp
  have hback : ∀ c ∈ back.reverse, (c != mark) = true := by
    intro c hc
    rw [bne_iff_ne]
    rintro rfl
    exact h (List.mem_reverse.mp hc)
  unfold afterLastChars
  rw [if_pos (by simp), hreverse, List.takeWhile_append_of_pos hback,
    List.takeWhile_cons_of_neg (by simp), List.append_nil, List.reverse_reverse]

theorem afterLast_append {mark : Char} {front back : String} (h : mark ∉ back.toList) :
    afterLast mark (front ++ String.singleton mark ++ back) = some back := by
  have hchars : (front ++ String.singleton mark ++ back).toList =
      front.toList ++ mark :: back.toList := by simp
  unfold afterLast
  rw [hchars, afterLastChars_append h, Option.map_some, String.ofList_toList]

theorem afterLast_eq_none {mark : Char} {s : String} (h : mark ∉ s.toList) :
    afterLast mark s = none := by
  unfold afterLast afterLastChars
  rw [if_neg h, Option.map_none]

theorem exists_append_of_mem {mark : Char} {s : String} (h : mark ∈ s.toList) :
    ∃ front back, s = front ++ String.singleton mark ++ back ∧ mark ∉ back.toList := by
  obtain ⟨back, front, hsplit, hback⟩ :=
    List.eq_append_cons_of_mem (List.mem_reverse.mpr h)
  refine ⟨String.ofList front.reverse, String.ofList back.reverse, ?_, by simpa using hback⟩
  have hchars := congrArg List.reverse hsplit
  rw [List.reverse_reverse] at hchars
  rw [← String.toList_inj, hchars]
  simp

end MediaRefresh.Text
