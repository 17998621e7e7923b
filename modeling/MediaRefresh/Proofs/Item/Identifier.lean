import MediaRefresh.Item.Id

/-!
# Items: identifiers and their texts

The canonical text of an identifier is read as that identifier.
-/

set_option autoImplicit false

namespace MediaRefresh.ItemId

variable {cs : List Char}

theorem digit?_digitChar : ∀ d : Fin 16, digit? (digitChar d) = some d := by decide

theorem mapM_digit? (ds : List (Fin 16)) : (ds.map digitChar).mapM digit? = some ds := by
  induction ds with
  | nil => rfl
  | cons d rest ih => simp [digit?_digitChar, ih]

theorem plain?_digits (id : ItemId) : plain? (id.digits.map digitChar) = some id := by
  unfold plain?
  rw [mapM_digit?]
  exact dif_pos id.length_digits

/-! ## Groups of digits -/

/-- Digits in groups of 8, 4, 4, 4 and the rest. -/
structure Groups (a b c d : List Char) : Prop where
  first : a.length = 8
  second : b.length = 4
  third : c.length = 4
  fourth : d.length = 4

section Groups

variable {a b c d e : List Char} (h : Groups a b c d)

include h

theorem grouped_groups : grouped (a ++ (b ++ (c ++ (d ++ e)))) =
    a ++ '-' :: (b ++ '-' :: (c ++ '-' :: (d ++ '-' :: e))) := by
  simp [grouped, List.drop_append, List.drop_eq_nil_of_le, h.first, h.second, h.third, h.fourth]

/-- Without its hyphens the text of some groups is those groups. -/
theorem hyphenated?_groups :
    hyphenated? (grouped (a ++ (b ++ (c ++ (d ++ e))))) =
      plain? (a ++ (b ++ (c ++ (d ++ e)))) := by
  have hbare : (grouped (a ++ (b ++ (c ++ (d ++ e))))).take 8 ++
      (((grouped (a ++ (b ++ (c ++ (d ++ e))))).drop 9).take 4 ++
        (((grouped (a ++ (b ++ (c ++ (d ++ e))))).drop 14).take 4 ++
          (((grouped (a ++ (b ++ (c ++ (d ++ e))))).drop 19).take 4 ++
            (grouped (a ++ (b ++ (c ++ (d ++ e))))).drop 24))) = a ++ (b ++ (c ++ (d ++ e))) := by
    rw [grouped_groups h]
    simp [List.drop_append, List.drop_eq_nil_of_le, h.first, h.second, h.third, h.fourth]
  unfold hyphenated?
  rw [hbare, if_pos rfl]

theorem length_grouped : (grouped (a ++ (b ++ (c ++ (d ++ e))))).length = e.length + 24 := by
  rw [grouped_groups h]
  simp only [List.length_append, List.length_cons, h.first, h.second, h.third, h.fourth]
  omega

end Groups

theorem exists_groups (h : cs.length = 32) :
    ∃ a b c d e, cs = a ++ (b ++ (c ++ (d ++ e))) ∧ Groups a b c d ∧ e.length = 12 := by
  refine ⟨cs.take 8, (cs.drop 8).take 4, (cs.drop 12).take 4, (cs.drop 16).take 4, cs.drop 20,
    ?_, ⟨?_, ?_, ?_, ?_⟩, ?_⟩
  · have hjoin (k : Nat) : (cs.drop k).take 4 ++ cs.drop (k + 4) = cs.drop k := by
      rw [← List.drop_drop, List.take_append_drop]
    rw [hjoin 16, hjoin 12, hjoin 8, List.take_append_drop]
  all_goals simp [h]

/-! ## Reading the canonical text -/

theorem parse?_text (id : ItemId) : parse? id.text = some id := by
  have hlength : (id.digits.map digitChar).length = 32 := by simp [id.length_digits]
  obtain ⟨a, b, c, d, e, hdigits, hgroups, hrest⟩ := exists_groups hlength
  have hread : hyphenated? (grouped (id.digits.map digitChar)) = some id := by
    rw [hdigits, hyphenated?_groups hgroups, ← hdigits, plain?_digits]
  have htext : (grouped (id.digits.map digitChar)).length = 36 := by
    rw [hdigits, length_grouped hgroups, hrest]
  unfold parse? text
  rw [String.toList_ofList]
  simp only [htext, hread]

end MediaRefresh.ItemId
