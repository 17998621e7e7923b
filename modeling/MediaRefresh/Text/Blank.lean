/-!
# Text: blank characters and trimming

A character is blank when Unicode gives it the property `White_Space`.  The
table below is that property in full; a zero-width space (U+200B) is not in it,
a no-break space (U+00A0) and an ideographic space (U+3000) are.
-/

set_option autoImplicit false

namespace MediaRefresh.Text

/-- The closed ranges of code points with the property `White_Space`. -/
def blankRanges : List (Nat × Nat) :=
  [(0x09, 0x0D), (0x20, 0x20), (0x85, 0x85), (0xA0, 0xA0), (0x1680, 0x1680),
   (0x2000, 0x200A), (0x2028, 0x2029), (0x202F, 0x202F), (0x205F, 0x205F), (0x3000, 0x3000)]

/-- Whether a character is white space. -/
def isBlank (c : Char) : Bool :=
  blankRanges.any fun r => r.1 ≤ c.toNat && c.toNat ≤ r.2

/-- The characters without the blank ones at either end. -/
def trimChars (cs : List Char) : List Char :=
  ((cs.dropWhile isBlank).reverse.dropWhile isBlank).reverse

/-- The text without the white space at either end. -/
def trim (s : String) : String := String.ofList (trimChars s.toList)

/-- Whether nothing but white space is in the text. -/
def blank (s : String) : Bool := s.toList.all isBlank

theorem trimChars_eq_nil_iff (cs : List Char) :
    trimChars cs = [] ↔ ∀ c ∈ cs, isBlank c = true := by
  have drop_nil (l : List Char) : l.dropWhile isBlank = [] ↔ ∀ c ∈ l, isBlank c = true := by
    induction l with
    | nil => simp
    | cons c r ih =>
      by_cases h : isBlank c = true
      · simp [h, ih]
      · simp [h]
  unfold trimChars
  rw [List.reverse_eq_nil_iff, drop_nil]
  constructor
  · intro h
    cases hd : cs.dropWhile isBlank with
    | nil => exact (drop_nil cs).mp hd
    | cons c r =>
      have hc : isBlank c = true := h c (by simp [hd])
      have := List.head_dropWhile_not isBlank (l := cs) (by simp [hd])
      simp [hd, hc] at this
  · intro h c hc
    exact h c (List.dropWhile_subset isBlank (by simpa using hc))

/-- A text is blank exactly when trimming leaves nothing. -/
theorem blank_iff_trim (s : String) : blank s = true ↔ trim s = "" := by
  rw [trim, ← String.toList_eq_nil_iff, String.toList_ofList, trimChars_eq_nil_iff]
  simp [blank]

end MediaRefresh.Text
