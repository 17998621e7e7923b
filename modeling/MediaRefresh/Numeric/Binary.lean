import MediaRefresh.Numeric.Power

/-!
# Numeric: binary floating-point numbers as bit patterns

A number of a format with `fractionBits` and `exponentBits` is its bit pattern:
sign, biased exponent, fraction.  Everything the library does with such numbers
(rounding a ratio to nearest even, converting between formats, comparing,
clamping, the total order of patterns) is integer arithmetic on the pattern, so
nothing depends on the machine's own arithmetic.
-/

set_option autoImplicit false

namespace MediaRefresh.Numeric

/-- The widths of the two lower fields of a pattern; one sign bit stands above. -/
structure Format where
  fractionBits : Nat
  exponentBits : Nat
  deriving DecidableEq, Repr

namespace Format

/-- The 32-bit format. -/
abbrev single : Format := ⟨23, 8⟩

/-- The 64-bit format. -/
abbrev double : Format := ⟨52, 11⟩

/-- The number of bits of a pattern. -/
abbrev width (f : Format) : Nat := f.fractionBits + f.exponentBits + 1

/-- The exponent field of infinities and NaNs. -/
def topExponent (f : Format) : Nat := twoTo f.exponentBits - 1

/-- The power of two of the last place of the smallest numbers. -/
def lowestScale (f : Format) : Int :=
  2 - (twoTo (f.exponentBits - 1) : Nat) - (f.fractionBits : Int)

/-- The pattern, without its sign, of positive infinity. -/
def infinityMagnitude (f : Format) : Nat := f.topExponent * twoTo f.fractionBits

/-- The pattern, without its sign, of the number nearest to `num / den`; of two
equally near ones the one with an even last place, and infinity beyond the
largest number. -/
def roundMagnitude (f : Format) (num den : Nat) : Nat :=
  if num = 0 ∨ den = 0 then 0
  else
    let scaled (q : Int) : Nat × Nat :=
      if 0 ≤ q then (num, den * twoTo q.toNat) else (num * twoTo (-q).toNat, den)
    let low : Int := (Nat.log2 num : Int) - (Nat.log2 den : Int) - 1 - (f.fractionBits : Int)
    let first := scaled low
    let fitted := if first.1 / first.2 < twoTo (f.fractionBits + 1) then low else low + 1
    let scale := max fitted f.lowestScale
    let (n, d) := scaled scale
    let quotient := n / d
    let rest := n % d
    let up := 2 * rest > d || (2 * rest = d && quotient % 2 = 1)
    let places := if up then quotient + 1 else quotient
    min ((scale - f.lowestScale).toNat * twoTo f.fractionBits + places) f.infinityMagnitude

end Format

/-- A floating-point number of format `f`. -/
structure Binary (f : Format) where
  bits : BitVec f.width
  deriving DecidableEq, Repr

/-- Double precision. -/
abbrev Binary64 := Binary .double

/-- Single precision. -/
abbrev Binary32 := Binary .single

namespace Binary

variable {f : Format}

instance : Inhabited (Binary f) := ⟨⟨0⟩⟩

/-- Whether the sign bit is set. -/
def negative (x : Binary f) : Bool := twoTo (f.fractionBits + f.exponentBits) ≤ x.bits.toNat

/-- The pattern without its sign; it grows with the absolute value. -/
def magnitude (x : Binary f) : Nat := x.bits.toNat % twoTo (f.fractionBits + f.exponentBits)

/-- Neither infinite nor NaN. -/
def isFinite (x : Binary f) : Bool := x.magnitude < f.infinityMagnitude

/-- Not a number. -/
def isNaN (x : Binary f) : Bool := f.infinityMagnitude < x.magnitude

/-- The number with the given sign and magnitude. -/
def ofMagnitude (negative : Bool) (magnitude : Nat) : Binary f :=
  ⟨BitVec.ofNat _ (magnitude + if negative then twoTo (f.fractionBits + f.exponentBits) else 0)⟩

/-- Positive zero. -/
def zero : Binary f := ⟨0⟩

/-- The nearest number to `num / den` with the given sign. -/
def ofRatio (negative : Bool) (num den : Nat) : Binary f :=
  ofMagnitude negative (f.roundMagnitude num den)

/-- The nearest number to an integer. -/
def ofInt (n : Int) : Binary f := ofRatio (n < 0) n.natAbs 1

/-- Positive or negative infinity. -/
def infinity (negative : Bool) : Binary f := ofMagnitude negative f.infinityMagnitude

/-- A quiet NaN. -/
def nan : Binary f := ofMagnitude false (f.infinityMagnitude + twoTo (f.fractionBits - 1))

/-- The places `n` and the scale `q` of a finite number, whose absolute value is
`n · 2 ^ q`. -/
def parts (x : Binary f) : Nat × Int :=
  let exponent := x.magnitude / twoTo f.fractionBits
  let fraction := x.magnitude % twoTo f.fractionBits
  if exponent = 0 then (fraction, f.lowestScale)
  else (fraction + twoTo f.fractionBits, f.lowestScale + exponent - 1)

/-- The absolute value of a finite number as a ratio. -/
def ratio (x : Binary f) : Nat × Nat :=
  let (n, q) := x.parts
  if 0 ≤ q then (n * twoTo q.toNat, 1) else (n, twoTo (-q).toNat)

/-- The nearest number of another format. -/
def convert (g : Format) (x : Binary f) : Binary g :=
  if x.isNaN then nan
  else if x.isFinite then ofRatio x.negative x.ratio.1 x.ratio.2
  else infinity x.negative

/-- The place of a number among all patterns: negative ones below positive ones,
`-0` below `0`, and NaNs outside the infinities. -/
def rank (x : Binary f) : Int :=
  if x.negative then -1 - (x.magnitude : Int) else x.magnitude

/-- A key by which numbers other than NaN compare; the two zeros share it. -/
def key (x : Binary f) : Int := if x.negative then -(x.magnitude : Int) else x.magnitude

/-- Numeric "less than", false when either side is NaN. -/
def lt (x y : Binary f) : Bool := !x.isNaN && !y.isNaN && x.key < y.key

/-- Numeric equality: the two zeros are equal, NaN equals nothing. -/
def equal (x y : Binary f) : Bool := !x.isNaN && !y.isNaN && x.key == y.key

/-- The number between `low` and `high` that is nearest to `x`. -/
def clamp (x low high : Binary f) : Binary f :=
  if x.lt low then low else if high.lt x then high else x

theorem equal_self {x : Binary f} (h : x.isNaN = false) : x.equal x = true := by
  simp [equal, h]

end Binary

end MediaRefresh.Numeric
