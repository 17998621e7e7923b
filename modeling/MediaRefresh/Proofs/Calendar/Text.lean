import Mathlib.Algebra.Order.Ring.Int
import MediaRefresh.Calendar.Instant

/-!
# Calendar: days and moments and their texts

The text of a day is read as that day, and the text of a moment as that moment.  Each reader
is shown to consume exactly what is written, whatever follows it.
-/

set_option autoImplicit false

namespace MediaRefresh.Calendar

variable {n m width most : Nat} {ds rest : List Char} {c : Char}

/-! ## Digits -/

theorem digitsValue_eq (ds : List Char) : digitsValue ds = Nat.ofDigitChars 10 ds 0 := by
  unfold digitsValue Nat.ofDigitChars
  simp only [Nat.mul_comm]

@[simp] theorem digitsValue_padded (width n : Nat) : digitsValue (padded width n) = n := by
  unfold padded
  rw [digitsValue_eq, Nat.ofDigitChars_append, Nat.ofDigitChars_replicate_zero, Nat.mul_zero,
    Nat.ofDigitChars_ten_toDigits]

theorem isDigit_of_mem_padded (h : c ∈ padded width n) : c.isDigit = true := by
  unfold padded at h
  rcases List.mem_append.mp h with hzero | hdigit
  · rw [List.eq_of_mem_replicate hzero]
    rfl
  · exact Nat.isDigit_of_mem_toDigits (by decide) (by decide) hdigit

theorem padded_ne_nil (width n : Nat) : padded width n ≠ [] := by
  simp [padded, Nat.toDigits_ne_nil]

/-- A padded number starts with a digit. -/
theorem exists_padded_cons (width n : Nat) :
    ∃ c cs, padded width n = c :: cs ∧ c.isDigit = true := by
  obtain ⟨c, cs, hcs⟩ := List.exists_cons_of_ne_nil (padded_ne_nil width n)
  exact ⟨c, cs, hcs, isDigit_of_mem_padded (hcs ▸ List.mem_cons_self)⟩

theorem length_padded (hwidth : 0 < width) (hn : n < 10 ^ width) :
    (padded width n).length = width := by
  have hdigits := (Nat.length_toDigits_le_iff (by decide) hwidth).mpr hn
  simp only [padded, List.length_append, List.length_replicate]
  omega

theorem isBlank_of_isDigit (h : c.isDigit = true) : Text.isBlank c = false := by
  obtain ⟨hlow, hhigh⟩ := Char.isDigit_iff_toNat.mp h
  rw [show '0'.toNat = 48 from rfl] at hlow
  rw [show '9'.toNat = 57 from rfl] at hhigh
  simp only [Text.isBlank, Text.blankRanges, List.any_cons, List.any_nil, Bool.or_false,
    Bool.or_eq_false_iff, Bool.and_eq_false_iff, decide_eq_false_iff_not]
  omega

theorem skipBlank_cons (h : Text.isBlank c = false) : skipBlank (c :: rest) = c :: rest := by
  simp [skipBlank, h]

@[simp] theorem skipBlank_padded : skipBlank (padded width n ++ rest) = padded width n ++ rest := by
  obtain ⟨c, cs, hcs, hdigit⟩ := exists_padded_cons width n
  rw [hcs, List.cons_append, skipBlank_cons (isBlank_of_isDigit hdigit)]

/-! ## Numbers -/

/-- Digits that are followed by no other digit, or that are as many as are looked for. -/
theorem takeWhile_take (hds : ∀ c ∈ ds, c.isDigit = true) (hmost : ds.length ≤ most)
    (hend : ds.length = most ∨ ∀ c ∈ rest.head?, c.isDigit = false) :
    ((ds ++ rest).take most).takeWhile Char.isDigit = ds := by
  rw [List.take_append, List.take_of_length_le hmost, List.takeWhile_append_of_pos hds]
  obtain hfull | hstop := hend
  · simp [hfull]
  · cases rest with
    | nil => simp
    | cons c rest =>
      have hc : c.isDigit = false := hstop c (by simp)
      cases most - ds.length with
      | zero => simp
      | succ k => simp [hc]

theorem number_append (hds : ∀ c ∈ ds, c.isDigit = true) (hne : ds ≠ [])
    (hmost : ds.length ≤ most)
    (hend : ds.length = most ∨ ∀ c ∈ rest.head?, c.isDigit = false) :
    number most (ds ++ rest) = some (digitsValue ds, rest) := by
  unfold number
  rw [takeWhile_take hds hmost hend]
  simp [hne]

@[simp] theorem number_padded (hwidth : 0 < width) (hn : n < 10 ^ width) :
    number width (padded width n ++ rest) = some (n, rest) := by
  have hlength := length_padded hwidth hn
  rw [number_append (fun _ => isDigit_of_mem_padded) (padded_ne_nil _ _) hlength.le
    (Or.inl hlength), digitsValue_padded]

/-! ## Days -/

theorem year_digit (h : c.isDigit = true) :
    year (c :: rest) = (number 4 (c :: rest)).map fun (n, rest) => ((n : Int), rest) := by
  unfold year
  split
  · rename_i heq
    rw [(List.cons.inj heq).1] at h
    exact absurd h (by decide)
  · rename_i heq
    rw [(List.cons.inj heq).1] at h
    exact absurd h (by decide)
  · rfl

/-- A number of any length up to a hyphen. -/
theorem number_length : number (padded width n ++ '-' :: rest).length
    (padded width n ++ '-' :: rest) = some (n, '-' :: rest) := by
  rw [number_append (fun _ => isDigit_of_mem_padded) (padded_ne_nil _ _) (by simp)
    (Or.inr (by simp)), digitsValue_padded]

theorem year_yearText (y : Int) :
    year (skipBlank (yearText y ++ '-' :: rest)) = some (y, '-' :: rest) := by
  unfold yearText
  split
  · rename_i hrange
    rw [skipBlank_padded]
    obtain ⟨c, cs, hcs, hdigit⟩ := exists_padded_cons 4 y.toNat
    have hnumber : number 4 (padded 4 y.toNat ++ '-' :: rest) = some (y.toNat, '-' :: rest) :=
      number_padded (by decide) (by omega)
    rw [hcs, List.cons_append] at hnumber ⊢
    rw [year_digit hdigit, hnumber]
    simp [Int.toNat_of_nonneg hrange.1]
  · split
    · rename_i hnegative
      rw [List.cons_append, skipBlank_cons (by decide)]
      simp only [year, number_length, Option.map_some]
      rw [Int.ofNat_natAbs_of_nonpos hnegative.le, neg_neg]
    · rename_i hnonnegative
      rw [List.cons_append, skipBlank_cons (by decide)]
      simp only [year, number_length, Option.map_some]
      rw [Int.natAbs_of_nonneg (not_lt.mp hnonnegative)]

@[simp] theorem hyphen_cons : hyphen ('-' :: rest) = some rest := rfl

theorem monthLength_le (year : Int) (month : Nat) : monthLength year month ≤ 31 := by
  unfold monthLength
  split
  · split <;> decide
  all_goals decide

namespace Date

theorem month_le (d : Date) : d.month ≤ 12 := by
  have := d.valid
  simp only [isDay, Bool.and_eq_true, decide_eq_true_eq] at this
  omega

theorem day_le (d : Date) : d.day ≤ 31 := by
  have := d.valid
  have hmonth := monthLength_le d.year d.month
  simp only [isDay, Bool.and_eq_true, decide_eq_true_eq] at this
  omega

@[simp] theorem of?_self (d : Date) : of? d.year d.month d.day = some d :=
  dif_pos d.valid

end Date

/-- A day is read back from its text, whatever follows. -/
theorem date_dateChars (d : Date) : date (dateChars d ++ rest) = some (d, rest) := by
  have hmonth : d.month < 10 ^ 2 := lt_of_le_of_lt d.month_le (by decide)
  have hday : d.day < 10 ^ 2 := lt_of_le_of_lt d.day_le (by decide)
  unfold date dateChars
  simp only [List.append_assoc, List.cons_append, year_yearText, Option.bind_eq_bind,
    Option.bind_some, hyphen_cons, skipBlank_padded, number_padded Nat.zero_lt_two hmonth,
    number_padded Nat.zero_lt_two hday, Date.of?_self]
  rfl

theorem Date.parse?_text (d : Date) : parse? d.text = some d := by
  have hread : date (dateChars d ++ []) = some (d, []) := date_dateChars d
  rw [List.append_nil] at hread
  unfold parse? text
  rw [String.toList_ofList, hread]
  rfl

/-! ## Moments -/

/-- The parts of a moment are those of a clock. -/
structure Instant.OnClock (t : Instant) : Prop where
  hour : t.hour < 24
  minute : t.minute < 60
  /-- second 60 is a leap second -/
  second : t.second ≤ 60
  nanosecond : t.nanosecond < 10 ^ 9

@[simp] theorem colon_cons : colon (':' :: rest) = some rest := rfl

theorem fraction_padded (hwidth : 0 < width) (hmost : width ≤ 9) (hn : n < 10 ^ width)
    (hrest : ∀ c ∈ rest.head?, c.isDigit = false) :
    fraction ('.' :: (padded width n ++ rest)) =
      some (n * Numeric.tenTo (9 - width), rest) := by
  have hlength := length_padded hwidth hn
  have hdigits : ((padded width n ++ rest).take 9).takeWhile Char.isDigit = padded width n :=
    takeWhile_take (fun _ => isDigit_of_mem_padded) (hlength.le.trans hmost) (Or.inr hrest)
  have hstop : rest.dropWhile Char.isDigit = rest := by
    cases rest with
    | nil => rfl
    | cons c rest => simp [hrest c (by simp)]
  simp [fraction, hdigits, padded_ne_nil, hlength, hstop]

/-- A fraction is written with three, six or nine digits, or not at all. -/
theorem fraction_fractionText (hn : n < 10 ^ 9) :
    fraction (fractionText n ++ ['Z']) = some (n, ['Z']) := by
  have hZ : ∀ c ∈ ['Z'].head?, c.isDigit = false := by simp
  unfold fractionText
  split
  · rename_i hzero
    rw [hzero]
    rfl
  · split
    · rename_i hmillis
      rw [List.cons_append, fraction_padded (by decide) (by decide) (by omega) hZ,
        show Numeric.tenTo (9 - 3) = 1000000 from rfl,
        Nat.div_mul_cancel (Nat.dvd_of_mod_eq_zero hmillis)]
    · split
      · rename_i hmicros
        rw [List.cons_append, fraction_padded (by decide) (by decide) (by omega) hZ,
          show Numeric.tenTo (9 - 6) = 1000 from rfl,
          Nat.div_mul_cancel (Nat.dvd_of_mod_eq_zero hmicros)]
      · rw [List.cons_append, fraction_padded (by decide) (by decide) hn hZ,
          show Numeric.tenTo (9 - 9) = 1 from rfl, Nat.mul_one]

@[simp] theorem offset_universal : offset ['Z'] = some (0, []) := by
  decide

namespace Instant

theorem ofLocal?_universal {t : Instant} (h : t.OnClock) :
    ofLocal? t.date (t.hour * 60 + t.minute) t.second t.nanosecond 0 = some t := by
  have hhour := h.hour
  have hminute := h.minute
  unfold ofLocal?
  simp only [Int.sub_zero]
  rw [if_neg (by omega), if_neg (by omega), Option.map_some, Int.toNat_natCast,
    show (t.hour * 60 + t.minute) / 60 = t.hour by omega,
    show (t.hour * 60 + t.minute) % 60 = t.minute by omega]

theorem parse?_text {t : Instant} (h : t.OnClock) : parse? t.text = some t := by
  have hhour : t.hour < 10 ^ 2 := h.hour.trans (by decide)
  have hminute : t.minute < 10 ^ 2 := h.minute.trans (by decide)
  have hsecond : t.second < 10 ^ 2 := lt_of_le_of_lt h.second (by decide)
  have hfraction := fraction_fractionText h.nanosecond
  unfold parse? text
  simp only [String.toList_ofList, date_dateChars, Option.bind_eq_bind, Option.bind_some,
    skipBlank_padded, number_padded Nat.zero_lt_two hhour, colon_cons,
    number_padded Nat.zero_lt_two hminute, number_padded Nat.zero_lt_two hsecond, hfraction,
    skipBlank_cons (show Text.isBlank 'Z' = false by decide), offset_universal]
  rw [if_pos ⟨h.hour, h.minute, h.second, rfl⟩, ofLocal?_universal h]

end Instant

end MediaRefresh.Calendar
