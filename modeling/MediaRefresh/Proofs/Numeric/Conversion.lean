import MediaRefresh.Proofs.Numeric.Value

/-!
# Numeric: numbers that another format has exactly

Rounding to the nearest number gives a number back whose value is the ratio that is rounded.
Every single-precision number has its value in double precision, so that converting it there
and back changes nothing.
-/

set_option autoImplicit false

namespace MediaRefresh.Numeric

namespace Format

variable {f : Format} {num den n : Nat} {q scale : Int}

/-! ## Rounding a ratio -/

/-- The terms of a ratio divided by a power of two, as `roundMagnitude` makes them. -/
def scaled (num den : Nat) (q : Int) : Nat × Nat :=
  if 0 ≤ q then (num, den * twoTo q.toNat) else (num * twoTo (-q).toNat, den)

theorem scaled_pos (hden : 0 < den) (q : Int) : 0 < (scaled num den q).2 := by
  unfold scaled
  split
  · exact Nat.mul_pos hden (twoTo_pos _)
  · exact hden

theorem scaled_ratio (num den : Nat) (q : Int) :
    ((scaled num den q).1 : ℚ) / (scaled num den q).2 = (num : ℚ) / den / 2 ^ q := by
  unfold scaled
  split
  · rename_i hq
    obtain ⟨k, rfl⟩ := Int.eq_ofNat_of_zero_le hq
    simp [twoTo, div_div]
  · rename_i hq
    obtain ⟨k, rfl⟩ : ∃ k : Nat, q = -(k : Int) := ⟨(-q).toNat, by omega⟩
    simp [twoTo]
    ring

/-- The power of two by which `roundMagnitude` divides, when it is not too small. -/
def fitted (f : Format) (num den : Nat) : Int :=
  let low : Int := (Nat.log2 num : Int) - (Nat.log2 den : Int) - 1 - (f.fractionBits : Int)
  let first := scaled num den low
  if first.1 / first.2 < twoTo (f.fractionBits + 1) then low else low + 1

theorem twoTo_cast (n : Nat) : (twoTo n : ℚ) = 2 ^ (n : Int) := by
  simp [twoTo]

/-- A number lies between its power of two and the next one. -/
theorem log2_bounds (h : n ≠ 0) :
    (2 : ℚ) ^ (Nat.log2 n : Int) ≤ n ∧ (n : ℚ) < 2 ^ (Nat.log2 n + 1 : Int) := by
  have hlow : ((2 ^ Nat.log2 n : Nat) : ℚ) ≤ n := by exact_mod_cast Nat.log2_self_le h
  have hhigh : (n : ℚ) < ((2 ^ (Nat.log2 n + 1) : Nat) : ℚ) := by exact_mod_cast Nat.lt_log2_self
  push_cast at hlow hhigh
  exact ⟨by simpa using hlow, by exact_mod_cast hhigh⟩

/-- The ratio divided by `2 ^ fitted` has one more binary place than a fraction. -/
theorem fitted_bounds (hnum : num ≠ 0) (hden : den ≠ 0) :
    (2 : ℚ) ^ (f.fitted num den + f.fractionBits) ≤ (num : ℚ) / den ∧
      (num : ℚ) / den < 2 ^ (f.fitted num den + f.fractionBits + 1) := by
  obtain ⟨hnumLow, hnumHigh⟩ := log2_bounds hnum
  obtain ⟨hdenLow, hdenHigh⟩ := log2_bounds hden
  have hdenPos : (0 : ℚ) < den := by exact_mod_cast Nat.pos_of_ne_zero hden
  generalize hlow : (Nat.log2 num : Int) - (Nat.log2 den : Int) - 1 - (f.fractionBits : Int) = low
  have habove : (2 : ℚ) ^ (low + f.fractionBits) ≤ (num : ℚ) / den := by
    rw [le_div_iff₀ hdenPos]
    calc (2 : ℚ) ^ (low + f.fractionBits) * den
        ≤ 2 ^ (low + f.fractionBits) * 2 ^ (Nat.log2 den + 1 : Int) := by
          gcongr
      _ = 2 ^ (Nat.log2 num : Int) := by
          rw [← zpow_add₀ two_ne_zero]
          congr 1
          omega
      _ ≤ num := hnumLow
  have hbelow : (num : ℚ) / den < 2 ^ (low + f.fractionBits + 2) := by
    rw [div_lt_iff₀ hdenPos]
    calc (num : ℚ) < 2 ^ (Nat.log2 num + 1 : Int) := hnumHigh
      _ = 2 ^ (low + f.fractionBits + 2) * 2 ^ (Nat.log2 den : Int) := by
          rw [← zpow_add₀ two_ne_zero]
          congr 1
          omega
      _ ≤ 2 ^ (low + f.fractionBits + 2) * den := by
          gcongr
  have hsecond : (0 : ℚ) < (scaled num den low).2 := by
    exact_mod_cast scaled_pos (Nat.pos_of_ne_zero hden) low
  have hfits : (scaled num den low).1 / (scaled num den low).2 < twoTo (f.fractionBits + 1) ↔
      (num : ℚ) / den < 2 ^ (low + f.fractionBits + 1) := by
    rw [Nat.div_lt_iff_lt_mul (by exact_mod_cast hsecond),
      show (low + f.fractionBits + 1 : Int) = ((f.fractionBits + 1 : Nat) : Int) + low by
        push_cast; ring,
      zpow_add₀ two_ne_zero, ← twoTo_cast, ← div_lt_iff₀ (by positivity), ← scaled_ratio,
      div_lt_iff₀ hsecond]
    exact_mod_cast Iff.rfl
  unfold fitted
  dsimp only
  rw [hlow]
  split
  · rename_i hfit
    exact ⟨habove, hfits.mp hfit⟩
  · rename_i hfit
    have hle : (2 : ℚ) ^ (low + f.fractionBits + 1) ≤ (num : ℚ) / den :=
      not_lt.mp (mt hfits.mpr hfit)
    refine ⟨?_, ?_⟩
    · rwa [show low + 1 + (f.fractionBits : Int) = low + f.fractionBits + 1 by ring]
    · rwa [show low + 1 + (f.fractionBits : Int) + 1 = low + f.fractionBits + 2 by ring]

/-- A ratio whose value is that of a number is divided by the number's own scale. -/
theorem max_fitted_eq (hnum : num ≠ 0) (hden : den ≠ 0) (hvalue : (num : ℚ) / den = n * 2 ^ q)
    (hn : n < twoTo (f.fractionBits + 1)) (hq : f.lowestScale ≤ q)
    (hplace : twoTo f.fractionBits ≤ n ∨ q = f.lowestScale) :
    max (f.fitted num den) f.lowestScale = q := by
  obtain ⟨habove, hbelow⟩ := fitted_bounds (f := f) hnum hden
  have hupper : f.fitted num den ≤ q := by
    have hlt : (2 : ℚ) ^ (f.fitted num den + f.fractionBits) <
        2 ^ (((f.fractionBits + 1 : Nat) : Int) + q) := by
      calc (2 : ℚ) ^ (f.fitted num den + f.fractionBits) ≤ n * 2 ^ q := hvalue ▸ habove
        _ < twoTo (f.fractionBits + 1) * 2 ^ q := by
            gcongr
        _ = _ := by rw [twoTo_cast, ← zpow_add₀ two_ne_zero]
    have := (zpow_lt_zpow_iff_right₀ one_lt_two).mp hlt
    omega
  obtain hnormal | rfl := hplace
  · have hlower : q ≤ f.fitted num den := by
      have hlt : (2 : ℚ) ^ ((f.fractionBits : Int) + q) <
          2 ^ (f.fitted num den + f.fractionBits + 1) := by
        calc (2 : ℚ) ^ ((f.fractionBits : Int) + q) = twoTo f.fractionBits * 2 ^ q := by
              rw [twoTo_cast, ← zpow_add₀ two_ne_zero]
          _ ≤ n * 2 ^ q := by
              gcongr
          _ < _ := hvalue ▸ hbelow
      have := (zpow_lt_zpow_iff_right₀ one_lt_two).mp hlt
      omega
    omega
  · omega

/-- Nothing is left over when a ratio is rounded whose value is that of a number. -/
theorem roundMagnitude_of_parts (hnum : num ≠ 0) (hden : den ≠ 0)
    (hvalue : (num : ℚ) / den = n * 2 ^ q) (hn : n < twoTo (f.fractionBits + 1))
    (hq : f.lowestScale ≤ q) (hplace : twoTo f.fractionBits ≤ n ∨ q = f.lowestScale) :
    f.roundMagnitude num den =
      min ((q - f.lowestScale).toNat * twoTo f.fractionBits + n) f.infinityMagnitude := by
  have hscale := max_fitted_eq hnum hden hvalue hn hq hplace
  have hpos : 0 < (scaled num den q).2 := scaled_pos (Nat.pos_of_ne_zero hden) q
  have hexact : (scaled num den q).1 = n * (scaled num den q).2 := by
    have hratio := scaled_ratio num den q
    rw [hvalue, mul_div_cancel_right₀ _ (by positivity),
      div_eq_iff (by exact_mod_cast hpos.ne')] at hratio
    exact_mod_cast hratio
  unfold roundMagnitude
  rw [if_neg (by simp [hnum, hden])]
  change (let scale := max (f.fitted num den) f.lowestScale
    let quotient := (scaled num den scale).1 / (scaled num den scale).2
    let rest := (scaled num den scale).1 % (scaled num den scale).2
    let up := 2 * rest > (scaled num den scale).2 ||
      (2 * rest = (scaled num den scale).2 && quotient % 2 = 1)
    let places := if up then quotient + 1 else quotient
    min ((scale - f.lowestScale).toNat * twoTo f.fractionBits + places) f.infinityMagnitude) = _
  simp only [hscale, hexact, Nat.mul_mod_left, Nat.mul_div_cancel _ hpos]
  rw [if_neg (by simp; omega)]

theorem valueOf_eq_zero_iff {m : Nat} : f.valueOf m = 0 ↔ m = 0 := by
  rw [← f.valueAt_natCast, ← f.valueOf_zero, ← f.valueAt_natCast]
  exact (strictMono_int_of_lt_succ f.valueAt_lt_succ).injective.eq_iff.trans (by simp)

/-- A ratio whose value is that of a number rounds to that number. -/
theorem roundMagnitude_of_value {m : Nat} (hm : m < f.infinityMagnitude) (hden : den ≠ 0)
    (hvalue : (num : ℚ) / den = f.valueOf m) : f.roundMagnitude num den = m := by
  have hunit := twoTo_pos f.fractionBits
  have hfraction := Nat.mod_lt m hunit
  have hsplit := Nat.div_add_mod m (twoTo f.fractionBits)
  have hdouble := twoTo_succ f.fractionBits
  by_cases hnum : num = 0
  · subst hnum
    rw [Nat.cast_zero, zero_div] at hvalue
    simp [roundMagnitude, valueOf_eq_zero_iff.mp hvalue.symm]
  · unfold valueOf at hvalue
    split at hvalue
    · rename_i hzero
      rw [hzero, Nat.mul_zero, Nat.zero_add] at hsplit
      rw [roundMagnitude_of_parts hnum hden hvalue (by omega) le_rfl (Or.inr rfl), hsplit]
      simpa using hm.le
    · rename_i hexponent
      have hpositive : 1 ≤ m / twoTo f.fractionBits := Nat.one_le_iff_ne_zero.mpr hexponent
      rw [roundMagnitude_of_parts hnum hden hvalue (by omega) (by omega) (Or.inl (by omega))]
      have hscale : (f.lowestScale + (m / twoTo f.fractionBits : Nat) - 1 - f.lowestScale).toNat =
          m / twoTo f.fractionBits - 1 := by omega
      have hplaces : (m / twoTo f.fractionBits - 1) * twoTo f.fractionBits +
          (m % twoTo f.fractionBits + twoTo f.fractionBits) = m := by
        rw [Nat.sub_mul, Nat.one_mul, Nat.mul_comm]
        have := Nat.mul_le_mul_left (twoTo f.fractionBits) hpositive
        omega
      rw [hscale, hplaces, Nat.min_eq_left hm.le]

/-! ## Numbers with a given value -/

/-- A whole number times a power of two is the value of a number, if its places fit and it is
neither too small nor too large. -/
theorem exists_valueOf (hn : n ≠ 0) (hplaces : Nat.log2 n ≤ f.fractionBits)
    (hsmall : f.lowestScale ≤ q - (f.fractionBits - Nat.log2 n : Nat))
    (hlarge : q - (f.fractionBits - Nat.log2 n : Nat) + 1 < f.lowestScale + f.topExponent) :
    ∃ m < f.infinityMagnitude, f.valueOf m = n * 2 ^ q := by
  -- the leading place is moved to the front of the fraction
  generalize hshift : f.fractionBits - Nat.log2 n = shift at hsmall hlarge
  generalize hexponent : (q - shift - f.lowestScale + 1).toNat = exponent
  have hfront : twoTo f.fractionBits ≤ n * twoTo shift := by
    calc twoTo f.fractionBits = 2 ^ Nat.log2 n * 2 ^ shift := by
          rw [← Nat.pow_add, show Nat.log2 n + shift = f.fractionBits by omega]
          rfl
      _ ≤ n * twoTo shift := Nat.mul_le_mul_right _ (Nat.log2_self_le hn)
  have hback : n * twoTo shift < 2 * twoTo f.fractionBits := by
    calc n * twoTo shift < 2 ^ (Nat.log2 n + 1) * twoTo shift :=
          Nat.mul_lt_mul_of_pos_right Nat.lt_log2_self (twoTo_pos shift)
      _ = twoTo (f.fractionBits + 1) := by
          rw [show f.fractionBits + 1 = Nat.log2 n + 1 + shift by omega]
          exact (Nat.pow_add 2 _ _).symm
      _ = 2 * twoTo f.fractionBits := twoTo_succ _
  have hfraction : n * twoTo shift - twoTo f.fractionBits < twoTo f.fractionBits := by omega
  refine ⟨twoTo f.fractionBits * exponent + (n * twoTo shift - twoTo f.fractionBits), ?_, ?_⟩
  · have htop : exponent + 1 ≤ f.topExponent := by omega
    have hbound := Nat.mul_le_mul_left (twoTo f.fractionBits) htop
    rw [Nat.mul_add, Nat.mul_one] at hbound
    unfold infinityMagnitude
    rw [Nat.mul_comm f.topExponent]
    omega
  · have hscale : f.lowestScale + exponent - 1 = -(shift : Int) + q := by omega
    rw [valueOf_place f hfraction, if_neg (by omega), Nat.sub_add_cancel hfront, hscale,
      zpow_add₀ two_ne_zero, zpow_neg, ← twoTo_cast, Nat.cast_mul, mul_assoc,
      mul_inv_cancel_left₀ (by exact_mod_cast (twoTo_pos shift).ne')]

theorem infinityMagnitude_lt (f : Format) :
    f.infinityMagnitude < twoTo (f.fractionBits + f.exponentBits) := by
  have htop : f.topExponent < twoTo f.exponentBits := Nat.sub_lt (twoTo_pos _) Nat.one_pos
  calc f.infinityMagnitude < twoTo f.exponentBits * twoTo f.fractionBits :=
        Nat.mul_lt_mul_of_pos_right htop (twoTo_pos _)
    _ = twoTo (f.fractionBits + f.exponentBits) := by
        rw [Nat.mul_comm]
        exact (Nat.pow_add 2 _ _).symm

end Format

namespace Binary

variable {f g : Format} {x : Binary f} {m : Nat}

/-! ## Conversion -/

theorem bits_ofMagnitude (negative : Bool) (hm : m < twoTo (f.fractionBits + f.exponentBits)) :
    (ofMagnitude negative m : Binary f).bits.toNat =
      m + if negative then twoTo (f.fractionBits + f.exponentBits) else 0 := by
  unfold ofMagnitude
  rw [BitVec.toNat_ofNat]
  refine Nat.mod_eq_of_lt (lt_of_lt_of_eq ?_ (twoTo_succ (f.fractionBits + f.exponentBits)).symm)
  split <;> omega

theorem magnitude_ofMagnitude (negative : Bool)
    (hm : m < twoTo (f.fractionBits + f.exponentBits)) :
    (ofMagnitude negative m : Binary f).magnitude = m := by
  unfold magnitude
  rw [bits_ofMagnitude negative hm]
  cases negative with
  | false => rw [if_neg (by decide), Nat.add_zero, Nat.mod_eq_of_lt hm]
  | true => rw [if_pos rfl, Nat.add_mod_right, Nat.mod_eq_of_lt hm]

theorem negative_ofMagnitude (sign : Bool) (hm : m < twoTo (f.fractionBits + f.exponentBits)) :
    (ofMagnitude sign m : Binary f).negative = sign := by
  unfold negative
  rw [bits_ofMagnitude sign hm]
  cases sign with
  | false => simpa using hm
  | true => simp

theorem ratio_value (x : Binary f) : (x.ratio.1 : ℚ) / x.ratio.2 = f.valueOf x.magnitude := by
  rw [← x.parts_value]
  unfold ratio
  dsimp only
  split
  · rename_i hq
    obtain ⟨k, hk⟩ := Int.eq_ofNat_of_zero_le hq
    simp [hk, twoTo]
  · rename_i hq
    obtain ⟨k, hk⟩ : ∃ k : Nat, x.parts.2 = -(k : Int) := ⟨(-x.parts.2).toNat, by omega⟩
    simp [hk, twoTo, div_eq_mul_inv]

theorem ratio_ne_zero (x : Binary f) : x.ratio.2 ≠ 0 := by
  unfold ratio
  dsimp only
  split
  · exact one_ne_zero
  · exact (twoTo_pos _).ne'

/-- A finite number is converted to the number of the other format that has its value. -/
theorem convert_of_value (hx : x.isFinite = true) (hm : m < g.infinityMagnitude)
    (hvalue : g.valueOf m = f.valueOf x.magnitude) :
    x.convert g = ofMagnitude x.negative m := by
  unfold convert ofRatio
  rw [isNaN_of_isFinite hx, hx, if_neg (by decide), if_pos rfl,
    Format.roundMagnitude_of_value hm x.ratio_ne_zero (x.ratio_value.trans hvalue.symm)]

/-- Conversion to a format that has the value, and back. -/
theorem convert_convert (hx : x.isFinite = true) (hm : m < g.infinityMagnitude)
    (hvalue : g.valueOf m = f.valueOf x.magnitude) : (x.convert g).convert f = x := by
  have hbound := hm.trans g.infinityMagnitude_lt
  have hmagnitude := magnitude_ofMagnitude (f := g) x.negative hbound
  have hfinite : (ofMagnitude x.negative m : Binary g).isFinite = true := by
    simpa [isFinite, hmagnitude] using hm
  have hown : x.magnitude < f.infinityMagnitude := by simpa [isFinite] using hx
  rw [convert_of_value hx hm hvalue,
    convert_of_value hfinite hown (by rw [hmagnitude, hvalue]), negative_ofMagnitude _ hbound]
  have hlimit := hown.trans f.infinityMagnitude_lt
  exact ext_magnitude (negative_ofMagnitude _ hlimit) (magnitude_ofMagnitude _ hlimit)

/-- The places and the scale of a finite number are within the format. -/
theorem parts_bounds (hx : x.isFinite = true) : x.parts.1 < twoTo (f.fractionBits + 1) ∧
    f.lowestScale ≤ x.parts.2 ∧ x.parts.2 + 1 < f.lowestScale + max 2 f.topExponent := by
  have hfraction := Nat.mod_lt x.magnitude (twoTo_pos f.fractionBits)
  have hexponent : x.magnitude / twoTo f.fractionBits < f.topExponent := by
    have hlt : x.magnitude < f.infinityMagnitude := by simpa [isFinite] using hx
    exact (Nat.div_lt_iff_lt_mul (twoTo_pos _)).mpr hlt
  have hdouble := twoTo_succ f.fractionBits
  unfold parts
  generalize x.magnitude / twoTo f.fractionBits = exponent at hexponent ⊢
  dsimp only
  split
  · exact ⟨by omega, le_rfl, by dsimp only; omega⟩
  · exact ⟨by omega, by dsimp only; omega, by dsimp only; omega⟩

/-- Every single-precision number is a double-precision number. -/
theorem exists_double {x : Binary32} (hx : x.isFinite = true) :
    ∃ m < Format.double.infinityMagnitude,
      Format.double.valueOf m = Format.single.valueOf x.magnitude := by
  obtain ⟨hplaces, hlow, hhigh⟩ := parts_bounds hx
  rw [← x.parts_value]
  by_cases hzero : x.parts.1 = 0
  · exact ⟨0, by decide, by simp [hzero]⟩
  · have hlog : Nat.log2 x.parts.1 < 24 := (Nat.log2_lt hzero).mpr hplaces
    have hsingle : Format.single.lowestScale = -149 := by decide
    have hdouble : Format.double.lowestScale = -1074 := by decide
    have htop : Format.single.topExponent = 255 := by decide
    have htop' : Format.double.topExponent = 2047 := by decide
    rw [hsingle] at hlow hhigh
    rw [htop] at hhigh
    exact Format.exists_valueOf hzero (by dsimp only; omega) (by rw [hdouble]; dsimp only; omega)
      (by rw [hdouble, htop']; dsimp only; omega)

/-- A finite single-precision number written in double precision is read back as it was. -/
theorem convert_double_single {x : Binary32} (hx : x.isFinite = true) :
    (x.convert .double).convert .single = x := by
  obtain ⟨m, hm, hvalue⟩ := exists_double hx
  exact convert_convert hx hm hvalue

end Binary

end MediaRefresh.Numeric
