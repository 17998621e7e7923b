import MediaRefresh.Text.Blank
import MediaRefresh.Value.Decode

/-!
# Calendar: days

A day of the proleptic Gregorian calendar, written `YYYY-MM-DD`.  A year outside
0 to 9999 has a sign and at least four digits.  When reading, the three numbers
may have fewer digits and blanks around them, and only the year may have a sign.
-/

set_option autoImplicit false

namespace MediaRefresh.Calendar

/-- Whether a year has a 29 February. -/
def isLeap (year : Int) : Bool := year % 4 == 0 && (year % 100 != 0 || year % 400 == 0)

/-- The number of days of a month. -/
def monthLength (year : Int) (month : Nat) : Nat :=
  match month with
  | 2 => if isLeap year then 29 else 28
  | 4 | 6 | 9 | 11 => 30
  | _ => 31

/-- The years that can be represented. -/
def yearBound : Int := 262142

/-- Whether three numbers name a day. -/
def isDay (year : Int) (month day : Nat) : Bool :=
  -yearBound ≤ year + 1 && year ≤ yearBound && 1 ≤ month && month ≤ 12 && 1 ≤ day &&
    day ≤ monthLength year month

/-- A day. -/
structure Date where
  year : Int
  month : Nat
  day : Nat
  valid : isDay year month day = true
  deriving DecidableEq

namespace Date

/-- The day of three numbers, if they name one. -/
def of? (year : Int) (month day : Nat) : Option Date :=
  if h : isDay year month day = true then some ⟨year, month, day, h⟩ else none

instance : Inhabited Date := ⟨⟨1970, 1, 1, by decide⟩⟩

/-- The day after, unless it is beyond the last representable one. -/
def next? (d : Date) : Option Date :=
  (of? d.year d.month (d.day + 1)).orElse fun _ =>
    (of? d.year (d.month + 1) 1).orElse fun _ => of? (d.year + 1) 1 1

/-- The day before, unless it is beyond the first representable one. -/
def previous? (d : Date) : Option Date :=
  (of? d.year d.month (d.day - 1)).orElse fun _ =>
    (of? d.year (d.month - 1) (monthLength d.year (d.month - 1))).orElse fun _ =>
      of? (d.year - 1) 12 31

end Date

/-- A number with at least `width` digits. -/
def padded (width n : Nat) : List Char :=
  let ds := Nat.toDigits 10 n
  List.replicate (width - ds.length) '0' ++ ds

/-- The characters of a year. -/
def yearText (year : Int) : List Char :=
  if 0 ≤ year ∧ year ≤ 9999 then padded 4 year.toNat
  else (if year < 0 then '-' else '+') :: padded 4 year.natAbs

/-- The characters of a day. -/
def dateChars (d : Date) : List Char :=
  yearText d.year ++ '-' :: (padded 2 d.month ++ '-' :: padded 2 d.day)

namespace Date

/-- The text of a day. -/
def text (d : Date) : String := String.ofList (dateChars d)

instance : Repr Date := ⟨fun d _ => d.text⟩

end Date

/-- The input without leading white space. -/
def skipBlank (cs : List Char) : List Char := cs.dropWhile Text.isBlank

/-- The value of a list of decimal digits. -/
def digitsValue (ds : List Char) : Nat := ds.foldl (fun n c => n * 10 + (c.toNat - '0'.toNat)) 0

/-- A number of at least one and at most `most` digits. -/
def number (most : Nat) (cs : List Char) : Option (Nat × List Char) :=
  let ds := (cs.take most).takeWhile Char.isDigit
  if ds.isEmpty then none else some (digitsValue ds, cs.drop ds.length)

/-- A number of exactly `count` digits. -/
def fixed (count : Nat) (cs : List Char) : Option (Nat × List Char) :=
  let ds := (cs.take count).takeWhile Char.isDigit
  if ds.length = count then some (digitsValue ds, cs.drop count) else none

/-- A year: up to four digits, or any number of them behind a sign. -/
def year (cs : List Char) : Option (Int × List Char) :=
  match cs with
  | '-' :: rest => (number rest.length rest).map fun (n, rest) => (-(n : Int), rest)
  | '+' :: rest => (number rest.length rest).map fun (n, rest) => ((n : Int), rest)
  | cs => (number 4 cs).map fun (n, rest) => ((n : Int), rest)

/-- A hyphen after white space. -/
def hyphen (cs : List Char) : Option (List Char) :=
  match skipBlank cs with
  | '-' :: rest => some rest
  | _ => none

/-- A day at the front of the input. -/
def date (cs : List Char) : Option (Date × List Char) := do
  let (y, cs) ← year (skipBlank cs)
  let cs ← hyphen cs
  let (m, cs) ← number 2 (skipBlank cs)
  let cs ← hyphen cs
  let (d, cs) ← number 2 (skipBlank cs)
  let day ← Date.of? y m d
  return (day, cs)

namespace Date

/-- Reads a day. -/
def parse? (s : String) : Option Date := do
  let (d, rest) ← date s.toList
  if (skipBlank rest).isEmpty then some d else none

/-- A day written as its text. -/
def toValue (d : Date) : Value := .text d.text

/-- Reads a day from a text. -/
def decode : Decoder Date := fun v => (Decode.text v).bind parse?

end Date

end MediaRefresh.Calendar
