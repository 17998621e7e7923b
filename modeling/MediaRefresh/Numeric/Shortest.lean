import MediaRefresh.Numeric.Binary

/-!
# Numeric: the shortest decimal that reads back

Between the midpoints to its two neighbours lie the decimals that round to a
given number.  `shortest` takes the coarsest decimal grid with a point in that
interval and, of its points there, the one nearest to the number.  Only the two
grid points around the number can be in question: if any point of a grid lies in
the interval, so does one of these.
-/

set_option autoImplicit false

namespace MediaRefresh.Numeric

/-- A positive decimal `digits · 10 ^ exponent`. -/
structure Decimal where
  digits : Nat
  exponent : Int
  deriving DecidableEq, Repr, Inhabited

namespace Decimal

/-- The number of decimal digits of a natural number; zero has one. -/
def digitCount (n : Nat) : Nat := (Nat.toDigits 10 n).length

/-- Drops the zeros at the end of the digits; `fuel` bounds their number. -/
def strip : Nat → Decimal → Decimal
  | 0, d => d
  | fuel + 1, d =>
    if d.digits ≠ 0 ∧ d.digits % 10 = 0 then strip fuel ⟨d.digits / 10, d.exponent + 1⟩ else d

/-- The decimal exponent of `num / den`: the `e` with `10 ^ e ≤ num / den < 10 ^ (e + 1)`. -/
def leading (num den : Nat) : Int :=
  let e : Int := (digitCount num : Int) - (digitCount den : Int)
  let reaches := if 0 ≤ e then den * tenTo e.toNat ≤ num else den ≤ num * tenTo (-e).toNat
  if reaches then e else e - 1

/-- The open or closed interval of ratios over one denominator. -/
structure Interval where
  low : Nat
  high : Nat
  den : Nat
  closed : Bool

/-- Whether `digits · 10 ^ exponent` lies in the interval. -/
def Interval.holds (i : Interval) (digits : Nat) (exponent : Int) : Bool :=
  let (n, scale) : Nat × Nat :=
    if 0 ≤ exponent then (digits * tenTo exponent.toNat * i.den, 1)
    else (digits * i.den, tenTo (-exponent).toNat)
  if i.closed then i.low * scale ≤ n && n ≤ i.high * scale
  else i.low * scale < n && n < i.high * scale

/-- The point of the grid with `count` digits that lies in the interval and is
nearest to `num / i.den`; on a tie the lower one. -/
def onGrid (i : Interval) (num : Nat) (top : Int) (count : Nat) : Option Decimal :=
  let exponent : Int := top - count + 1
  let (n, d) : Nat × Nat :=
    if 0 ≤ exponent then (num, i.den * tenTo exponent.toNat)
    else (num * tenTo (-exponent).toNat, i.den)
  let below := n / d
  let rest := n % d
  match i.holds below exponent, i.holds (below + 1) exponent with
  | true, true => some ⟨if 2 * rest ≤ d then below else below + 1, exponent⟩
  | true, false => some ⟨below, exponent⟩
  | false, true => some ⟨below + 1, exponent⟩
  | false, false => none

/-- The first grid with a point in the interval, from `count` digits on. -/
def firstGrid (i : Interval) (num : Nat) (top : Int) : (fuel count : Nat) → Option Decimal
  | 0, _ => none
  | fuel + 1, count =>
    match onGrid i num top count with
    | some d => some d
    | none => firstGrid i num top fuel (count + 1)

end Decimal

/-- The shortest decimal that reads back as the absolute value of a finite
number; zero for zero. -/
def Binary.shortest {f : Format} (x : Binary f) : Decimal :=
  let (n, q) := x.parts
  if n = 0 then ⟨0, 0⟩
  else
    let halves : Nat := if n = twoTo f.fractionBits ∧ f.lowestScale < q then 1 else 2
    let scale : Int := q - 2
    let (unit, den) : Nat × Nat :=
      if 0 ≤ scale then (twoTo scale.toNat, 1) else (1, twoTo (-scale).toNat)
    let interval : Decimal.Interval :=
      ⟨(4 * n - halves) * unit, (4 * n + 2) * unit, den, n % 2 = 0⟩
    let num := 4 * n * unit
    match Decimal.firstGrid interval num (Decimal.leading num den) 20 1 with
    | some d => Decimal.strip 20 d
    | none => ⟨num / den, 0⟩

end MediaRefresh.Numeric
