import MediaRefresh.Numeric.Shortest
import MediaRefresh.Value.Basic

/-!
# JSON: numbers

A number without point and exponent is an integer while it fits 64 bits; every
other number, and `-0`, is a real: the one nearest to the decimal that is written.
A real beyond the largest one is no number.  A real is written with the fewest
digits that read back, always with a point or an exponent.
-/

set_option autoImplicit false

namespace MediaRefresh.Json

open Numeric

/-- A number as it stands in a text. -/
structure NumberText where
  negative : Bool
  /-- the digits before the point -/
  whole : List Nat
  /-- the digits after the point, if there is one -/
  fraction : Option (List Nat)
  /-- the exponent, if there is one -/
  exponent : Option Int
  deriving Repr

/-- The bound of integers. -/
def integerBound : Nat := twoTo 64

/-- Decimals of `10 ^ decimalBound` and more are beyond every real, and those below
`10 ^ -decimalBound` round to zero. -/
def decimalBound : Int := 400

/-- The real nearest to `digits · 10 ^ power`, or nothing beyond the largest one.
`digits` has at most `count` digits, so the first two cases only save work. -/
def realOf (negative : Bool) (digits count : Nat) (power : Int) : Option Binary64 :=
  if digits = 0 ∨ count + power < -decimalBound then some (Binary.ofMagnitude negative 0)
  else if decimalBound < power then none
  else
    let x : Binary64 :=
      if 0 ≤ power then Binary.ofRatio negative (digits * tenTo power.toNat) 1
      else Binary.ofRatio negative digits (tenTo power.natAbs)
    if x.isFinite then some x else none

namespace NumberText

/-- The number as an unsigned integer, when its text has no point or exponent. -/
def integer? (t : NumberText) : Option Int :=
  match t.fraction, t.exponent with
  | none, none =>
    let n : Nat := t.whole.foldl (fun n d => n * 10 + d) 0
    if t.negative then
      if n ≠ 0 ∧ n ≤ twoTo 63 then some (-(n : Int)) else none
    else if n < integerBound then some n else none
  | _, _ => none

/-- The number as a real, or nothing beyond the largest one. -/
def real? (t : NumberText) : Option Binary64 :=
  let places := t.fraction.getD []
  let ds := t.whole ++ places
  realOf t.negative (ds.foldl (fun n d => n * 10 + d) 0) ds.length
    (t.exponent.getD 0 - places.length)

/-- The node that a number is read into. -/
def value? (t : NumberText) : Option Value :=
  match t.integer? with
  | some n => some (.integer n)
  | none => t.real?.map .real

end NumberText

/-- A decimal in positional notation from `10 ^ -5` up to `10 ^ 16`, else with an
exponent. -/
def writeDecimal (d : Decimal) : String :=
  let digits := Nat.toDigits 10 d.digits
  let point : Int := digits.length + d.exponent
  let chars : List Char :=
    if 0 < point ∧ point ≤ 16 then
      if 0 ≤ d.exponent then digits ++ List.replicate d.exponent.toNat '0' ++ ['.', '0']
      else digits.take point.toNat ++ '.' :: digits.drop point.toNat
    else if -5 < point ∧ point ≤ 0 then
      '0' :: '.' :: List.replicate (-point).toNat '0' ++ digits
    else
      let rest := digits.drop 1
      digits.take 1 ++ (if rest.isEmpty then [] else '.' :: rest) ++
        'e' :: (toString (point - 1)).toList
  String.ofList chars

/-- A real; one that JSON lacks is written `null`. -/
def writeReal (x : Binary64) : String :=
  if x.isFinite then
    let digits := if x.magnitude = 0 then "0.0" else writeDecimal x.shortest
    if x.negative then "-" ++ digits else digits
  else "null"

end MediaRefresh.Json
