import MediaRefresh.Numeric.Binary

/-!
# Numeric: equality of numbers and equality of patterns

Two numbers other than NaN are equal exactly when they have one pattern once a zero has
lost its sign.
-/

set_option autoImplicit false

namespace MediaRefresh.Numeric.Binary

variable {f : Format} {x y : Binary f}

/-- The number, with a zero made positive. -/
def unsignedZero (x : Binary f) : Binary f := if x.magnitude = 0 then zero else x

theorem bits_toNat (x : Binary f) : x.bits.toNat =
    x.magnitude + if x.negative then twoTo (f.fractionBits + f.exponentBits) else 0 := by
  have hlt : x.bits.toNat < 2 * twoTo (f.fractionBits + f.exponentBits) := by
    rw [← twoTo_succ]
    exact x.bits.isLt
  unfold magnitude negative
  by_cases hle : twoTo (f.fractionBits + f.exponentBits) ≤ x.bits.toNat
  · rw [if_pos (decide_eq_true hle), Nat.mod_eq_sub_mod hle, Nat.mod_eq_of_lt (by omega)]
    omega
  · rw [if_neg (by simpa using hle), Nat.mod_eq_of_lt (by omega), Nat.add_zero]

/-- The sign and the magnitude are the whole pattern. -/
theorem ext_magnitude (hsign : x.negative = y.negative) (hmagnitude : x.magnitude = y.magnitude) :
    x = y := by
  have hbits : x.bits = y.bits := by
    apply BitVec.eq_of_toNat_eq
    rw [bits_toNat, bits_toNat, hsign, hmagnitude]
  obtain ⟨xbits⟩ := x
  exact congrArg Binary.mk hbits

theorem magnitude_zero : (zero : Binary f).magnitude = 0 := by
  simp [zero, magnitude]

theorem key_eq_iff : x.key = y.key ↔
    x.magnitude = y.magnitude ∧ (x.negative = y.negative ∨ x.magnitude = 0) := by
  unfold key
  cases x.negative <;> cases y.negative <;> simp <;> omega

theorem unsignedZero_eq_of_equal (h : x.equal y = true) : x.unsignedZero = y.unsignedZero := by
  unfold equal at h
  simp only [Bool.and_eq_true, beq_iff_eq] at h
  obtain ⟨hmagnitude, hsign⟩ := key_eq_iff.mp h.2
  unfold unsignedZero
  rw [← hmagnitude]
  by_cases hzero : x.magnitude = 0
  · rw [if_pos hzero, if_pos hzero]
  · rw [if_neg hzero, if_neg hzero]
    exact ext_magnitude (hsign.resolve_right hzero) hmagnitude

theorem equal_of_unsignedZero_eq (h : x.unsignedZero = y.unsignedZero) (hy : y.isNaN = false) :
    x.equal y = true := by
  unfold unsignedZero at h
  split at h
  · rename_i hx
    split at h
    · rename_i hzero
      have hkey : x.key = y.key := key_eq_iff.mpr ⟨by rw [hx, hzero], Or.inr hx⟩
      simp [equal, isNaN, hx, hzero, hkey]
    · rename_i hzero
      rw [← h, magnitude_zero] at hzero
      exact absurd rfl hzero
  · rename_i hx
    split at h
    · rw [h, magnitude_zero] at hx
      exact absurd rfl hx
    · rw [h]
      exact equal_self hy

end MediaRefresh.Numeric.Binary
