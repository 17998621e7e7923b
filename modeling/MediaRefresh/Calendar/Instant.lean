import MediaRefresh.Calendar.Date
import MediaRefresh.Text.Folding

/-!
# Calendar: moments

A moment of universal time.  It is written `YYYY-MM-DDTHH:MM:SSZ` with no
fraction of a second, or one of 3, 6 or 9 digits, the fewest that suffice.  It is
read with any offset from universal time and any number of fractional digits, of
which nine count; blanks may stand around the numbers.  A leap second is second
60 of its minute.
-/

set_option autoImplicit false

namespace MediaRefresh.Calendar

/-- A moment of universal time. -/
structure Instant where
  date : Date
  hour : Nat
  minute : Nat
  second : Nat
  nanosecond : Nat
  deriving DecidableEq, Inhabited, Repr

/-- The digits of a fraction of a second, in groups of three. -/
def fractionText (nanosecond : Nat) : List Char :=
  if nanosecond = 0 then []
  else if nanosecond % 1000000 = 0 then '.' :: padded 3 (nanosecond / 1000000)
  else if nanosecond % 1000 = 0 then '.' :: padded 6 (nanosecond / 1000)
  else '.' :: padded 9 nanosecond

namespace Instant

/-- The text of a moment. -/
def text (t : Instant) : String :=
  String.ofList (dateChars t.date ++ 'T' :: (padded 2 t.hour ++ ':' :: (padded 2 t.minute ++
    ':' :: (padded 2 t.second ++ (fractionText t.nanosecond ++ ['Z'])))))

/-- The moment whose clock, `offset` minutes ahead of universal time, shows the
given day and minute of the day, if its own day can be represented. -/
def ofLocal? (day : Date) (minuteOfDay : Nat) (second nanosecond : Nat) (offset : Int) :
    Option Instant :=
  let minutes : Int := minuteOfDay - offset
  let at? (day : Option Date) (minutes : Nat) : Option Instant :=
    day.map fun day => ⟨day, minutes / 60, minutes % 60, second, nanosecond⟩
  if minutes < 0 then at? day.previous? (minutes + 1440).toNat
  else if 1440 ≤ minutes then at? day.next? (minutes - 1440).toNat
  else at? (some day) minutes.toNat

end Instant

/-- A colon after white space. -/
def colon (cs : List Char) : Option (List Char) :=
  match skipBlank cs with
  | ':' :: rest => some rest
  | _ => none

/-- A fraction of a second, if there is one, in nanoseconds. -/
def fraction (cs : List Char) : Option (Nat × List Char) :=
  match cs with
  | '.' :: rest =>
    let ds := (rest.take 9).takeWhile Char.isDigit
    if ds.isEmpty then none
    else
      some (digitsValue ds * Numeric.tenTo (9 - ds.length),
        (rest.drop ds.length).dropWhile Char.isDigit)
  | cs => some (0, cs)

/-- An offset of hours and minutes behind its sign, in minutes. -/
def offsetBehindSign (negative : Bool) (cs : List Char) : Option (Int × List Char) := do
  let (h, cs) ← fixed 2 cs
  let cs := cs.dropWhile fun c => c == ':' || Text.isBlank c
  let (m, cs) ← fixed 2 cs
  let minutes : Int := h * 60 + m
  if m < 60 ∧ h < 24 then some (if negative then -minutes else minutes, cs) else none

/-- The offset from universal time, in minutes. -/
def offset (cs : List Char) : Option (Int × List Char) :=
  if Text.fold (String.ofList (cs.take 3)) == "utc" then some (0, cs.drop 3)
  else match cs with
    | 'Z' :: rest | 'z' :: rest => some (0, rest)
    | '+' :: rest => offsetBehindSign false rest
    | '-' :: rest | '\u2212' :: rest => offsetBehindSign true rest
    | _ => none

namespace Instant

/-- Reads a moment. -/
def parse? (s : String) : Option Instant := do
  let (day, cs) ← Calendar.date s.toList
  let cs ← match cs with
    | 'T' :: rest | 't' :: rest | ' ' :: rest => some rest
    | _ => none
  let (h, cs) ← number 2 (skipBlank cs)
  let cs ← colon cs
  let (m, cs) ← number 2 (skipBlank cs)
  let cs ← colon cs
  let (sec, cs) ← number 2 (skipBlank cs)
  let (nanos, cs) ← fraction cs
  let (off, cs) ← offset (skipBlank cs)
  if h < 24 ∧ m < 60 ∧ sec ≤ 60 ∧ (skipBlank cs).isEmpty then
    ofLocal? day (h * 60 + m) sec nanos off
  else none

/-- A moment written as its text. -/
def toValue (t : Instant) : Value := .text t.text

/-- Reads a moment from a text. -/
def decode : Decoder Instant := fun v => (Decode.text v).bind parse?

end Instant

end MediaRefresh.Calendar
