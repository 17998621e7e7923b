import MediaRefresh.Proofs.Numeric.Equality
import Mathlib.Algebra.Order.Field.Power
import Mathlib.Algebra.Order.Field.Rat
import Mathlib.Tactic.Linarith
import Mathlib.Tactic.NormNum
import Mathlib.Tactic.Positivity
import Mathlib.Tactic.Ring

/-!
# Numeric: the values of numbers

A finite number stands for a rational, its value.  Values grow with the key by which numbers
are compared, so comparing and clamping numbers is comparing and clamping their values.
-/

set_option autoImplicit false

namespace MediaRefresh.Numeric

namespace Format

variable (f : Format)

/-- The value of the positive number with a magnitude. -/
def valueOf (magnitude : Nat) : ℚ :=
  if magnitude / twoTo f.fractionBits = 0 then
    (magnitude % twoTo f.fractionBits : Nat) * (2 : ℚ) ^ f.lowestScale
  else
    (magnitude % twoTo f.fractionBits + twoTo f.fractionBits : Nat) *
      (2 : ℚ) ^ (f.lowestScale + (magnitude / twoTo f.fractionBits : Nat) - 1)

theorem valueOf_place {exponent fraction : Nat} (h : fraction < twoTo f.fractionBits) :
    f.valueOf (twoTo f.fractionBits * exponent + fraction) =
      if exponent = 0 then (fraction : ℚ) * 2 ^ f.lowestScale
      else (fraction + twoTo f.fractionBits : Nat) * (2 : ℚ) ^ (f.lowestScale + exponent - 1) := by
  unfold valueOf
  rw [Nat.mul_add_div (twoTo_pos _), Nat.div_eq_of_lt h, Nat.add_zero, Nat.mul_add_mod,
    Nat.mod_eq_of_lt h]

@[simp] theorem valueOf_zero : f.valueOf 0 = 0 := by
  simp [valueOf]

/-- Within the numbers of one exponent the value grows by a last place, and so it does from
the last of them to the first of the next exponent. -/
theorem valueOf_lt_succ (m : Nat) : f.valueOf m < f.valueOf (m + 1) := by
  have hunit := twoTo_pos f.fractionBits
  have hplace (scale : Int) : (0 : ℚ) < 2 ^ scale := by positivity
  have hfraction := Nat.mod_lt m hunit
  rw [← Nat.div_add_mod m (twoTo f.fractionBits)]
  generalize m / twoTo f.fractionBits = exponent
  generalize m % twoTo f.fractionBits = fraction at hfraction
  rw [valueOf_place f hfraction]
  by_cases hlast : fraction + 1 < twoTo f.fractionBits
  · rw [Nat.add_assoc, valueOf_place f hlast]
    split
    · push_cast
      linarith [hplace f.lowestScale]
    · push_cast
      linarith [hplace (f.lowestScale + exponent - 1)]
  · have hnext : twoTo f.fractionBits * exponent + fraction + 1 =
        twoTo f.fractionBits * (exponent + 1) + 0 := by
      rw [Nat.mul_add]
      omega
    have hcast : (twoTo f.fractionBits : ℚ) = fraction + 1 := by
      exact_mod_cast (by omega : twoTo f.fractionBits = fraction + 1)
    rw [hnext, valueOf_place f hunit, if_neg (Nat.succ_ne_zero exponent)]
    split
    · rename_i hzero
      have hscale : f.lowestScale + (exponent + 1 : Nat) - 1 = f.lowestScale := by omega
      rw [hscale]
      push_cast
      rw [hcast]
      linarith [hplace f.lowestScale]
    · have hscale : (2 : ℚ) ^ (f.lowestScale + (exponent + 1 : Nat) - 1) =
          2 * 2 ^ (f.lowestScale + exponent - 1) := by
        rw [← zpow_one_add₀ (by norm_num)]
        push_cast
        ring_nf
      rw [hscale]
      push_cast
      rw [hcast]
      linarith [hplace (f.lowestScale + exponent - 1)]

/-- The value of the numbers with a key. -/
def valueAt (key : Int) : ℚ := if key < 0 then -f.valueOf key.natAbs else f.valueOf key.natAbs

theorem valueAt_natCast (m : Nat) : f.valueAt m = f.valueOf m := by
  simp [valueAt]

theorem valueAt_neg_natCast (m : Nat) : f.valueAt (-m) = -f.valueOf m := by
  unfold valueAt
  rcases Nat.eq_zero_or_pos m with rfl | hpos
  · simp
  · rw [if_pos (by omega), Int.natAbs_neg, Int.natAbs_natCast]

theorem valueAt_lt_succ (key : Int) : f.valueAt key < f.valueAt (key + 1) := by
  rcases key with m | m
  · exact_mod_cast f.valueOf_lt_succ m
  · have hnext : Int.negSucc m + 1 = -(m : Int) := by omega
    have hhere : Int.negSucc m = -((m + 1 : Nat) : Int) := rfl
    rw [hnext, hhere, valueAt_neg_natCast, valueAt_neg_natCast, neg_lt_neg_iff]
    exact f.valueOf_lt_succ m

theorem valueAt_lt_valueAt {j k : Int} : f.valueAt j < f.valueAt k ↔ j < k :=
  (strictMono_int_of_lt_succ f.valueAt_lt_succ).lt_iff_lt

theorem valueAt_inj {j k : Int} : f.valueAt j = f.valueAt k ↔ j = k :=
  (strictMono_int_of_lt_succ f.valueAt_lt_succ).injective.eq_iff

end Format

namespace Binary

variable {f : Format} {x y low high : Binary f}

/-- The value of a finite number. -/
def value (x : Binary f) : ℚ := (if x.negative then -1 else 1) * x.parts.1 * 2 ^ x.parts.2

theorem parts_value (x : Binary f) :
    (x.parts.1 : ℚ) * 2 ^ x.parts.2 = f.valueOf x.magnitude := by
  unfold parts Format.valueOf
  dsimp only
  split
  · rfl
  · rfl

theorem value_eq_valueAt (x : Binary f) : x.value = f.valueAt x.key := by
  unfold value key
  rw [mul_assoc, parts_value]
  split
  · rw [Format.valueAt_neg_natCast, neg_one_mul]
  · rw [Format.valueAt_natCast, one_mul]

theorem lt_iff_value (hx : x.isNaN = false) (hy : y.isNaN = false) :
    x.lt y = true ↔ x.value < y.value := by
  simp [lt, hx, hy, value_eq_valueAt, f.valueAt_lt_valueAt]

/-- Ranks grow with the values; of two numbers of one value, which are zeros, the negative one
comes first. -/
theorem rank_lt_iff_value : x.rank < y.rank ↔
    x.value < y.value ∨ x.value = y.value ∧ x.negative = true ∧ y.negative = false := by
  rw [value_eq_valueAt, value_eq_valueAt, f.valueAt_lt_valueAt, f.valueAt_inj]
  unfold rank key
  cases x.negative <;> cases y.negative <;> simp <;> omega

theorem rank_inj : x.rank = y.rank ↔ x = y := by
  refine ⟨fun h => ?_, fun h => h ▸ rfl⟩
  have hboth : x.negative = y.negative ∧ x.magnitude = y.magnitude := by
    revert h
    unfold rank
    cases x.negative <;> cases y.negative <;> simp <;> omega
  exact ext_magnitude hboth.1 hboth.2

/-- Numbers of one value differ at most in the sign of zero. -/
theorem eq_of_value_eq (hvalue : x.value = y.value) (hsign : x.negative = y.negative) : x = y := by
  rw [value_eq_valueAt, value_eq_valueAt, f.valueAt_inj] at hvalue
  have hmagnitude : x.magnitude = y.magnitude := by
    revert hvalue
    unfold key
    rw [hsign]
    cases y.negative <;> simp
  exact ext_magnitude hsign hmagnitude

theorem isNaN_of_isFinite (h : x.isFinite = true) : x.isNaN = false := by
  simp only [isFinite, decide_eq_true_eq] at h
  simp only [isNaN, decide_eq_false_iff_not]
  omega

theorem value_clamp (hx : x.isNaN = false) (hlow : low.isNaN = false)
    (hhigh : high.isNaN = false) (hle : low.value ≤ high.value) :
    (x.clamp low high).value = max low.value (min x.value high.value) := by
  unfold clamp
  split
  · rename_i hbelow
    have hbelow := (lt_iff_value hx hlow).mp hbelow
    rw [min_eq_left (hbelow.le.trans hle), max_eq_left hbelow.le]
  · rename_i hlower
    have hlower : low.value ≤ x.value := not_lt.mp (mt (lt_iff_value hx hlow).mpr hlower)
    split
    · rename_i habove
      have habove := (lt_iff_value hhigh hx).mp habove
      rw [min_eq_right habove.le, max_eq_right hle]
    · rename_i hupper
      have hupper : x.value ≤ high.value := not_lt.mp (mt (lt_iff_value hhigh hx).mpr hupper)
      rw [min_eq_left hupper, max_eq_right hlower]

theorem isFinite_clamp (hx : x.isFinite = true) (hlow : low.isFinite = true)
    (hhigh : high.isFinite = true) : (x.clamp low high).isFinite = true := by
  unfold clamp
  split
  · exact hlow
  · split
    · exact hhigh
    · exact hx

end Binary

end MediaRefresh.Numeric
