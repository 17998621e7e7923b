import MediaRefresh.Calendar.Date
import MediaRefresh.Json.Reader

/-!
# TOML: texts, numbers and dates

The values of one line or of one quoted block.  Every reader consumes a prefix of
the input and returns the rest; what must follow a value is checked by the
document reader.
-/

set_option autoImplicit false

namespace MediaRefresh.Toml

open Numeric
open Json (Step hexDigit?)

/-- A space or a tab. -/
def isSpace (c : Char) : Bool := c == ' ' || c == '\t'

/-- The input without leading spaces and tabs. -/
def skipSpace (cs : List Char) : List Char := cs.dropWhile isSpace

/-- The input behind a line ending. -/
def newline : List Char → Option (List Char)
  | '\n' :: rest => some rest
  | '\r' :: '\n' :: rest => some rest
  | _ => none

/-- Characters that may stand in comments and texts: no control character but the tab. -/
def isPrintable (c : Char) : Bool := c == '\t' || (0x20 ≤ c.toNat && c.toNat != 0x7F)

/-- The input without leading spaces, tabs and line endings. -/
def skipLines : List Char → List Char
  | ' ' :: rest => skipLines rest
  | '\t' :: rest => skipLines rest
  | '\n' :: rest => skipLines rest
  | '\r' :: '\n' :: rest => skipLines rest
  | cs => cs

/-! ## Texts -/

/-- The character of a hexadecimal number, if it is one. -/
def scalar? (ds : List Char) : Option Char := do
  let ns ← ds.mapM hexDigit?
  let n := ns.foldl (fun n d => n * 16 + d) 0
  if n.isValidChar then some (Char.ofNat n) else none

/-- An escape behind its backslash. -/
def escape : Step Char
  | 'b' :: rest => some ('\x08', rest)
  | 't' :: rest => some ('\t', rest)
  | 'n' :: rest => some ('\n', rest)
  | 'f' :: rest => some ('\x0c', rest)
  | 'r' :: rest => some ('\r', rest)
  | '"' :: rest => some ('"', rest)
  | '\\' :: rest => some ('\\', rest)
  | 'u' :: rest =>
    if rest.length < 4 then none else (scalar? (rest.take 4)).map fun c => (c, rest.drop 4)
  | 'U' :: rest =>
    if rest.length < 8 then none else (scalar? (rest.take 8)).map fun c => (c, rest.drop 8)
  | _ => none

/-- The rest of a text of one line with escapes, behind its opening quote. -/
def basicRest : (fuel : Nat) → (found : List Char) → Step String
  | 0, _, _ => none
  | fuel + 1, found, cs =>
    match cs with
    | '"' :: rest => some (String.ofList found.reverse, rest)
    | '\\' :: rest =>
      match escape rest with
      | some (c, rest) => basicRest fuel (c :: found) rest
      | none => none
    | c :: rest => if isPrintable c then basicRest fuel (c :: found) rest else none
    | [] => none

/-- The rest of a text of one line without escapes, behind its opening quote. -/
def literalRest (cs : List Char) : Option (String × List Char) :=
  match cs.dropWhile fun c => c != '\'' && isPrintable c with
  | '\'' :: rest => some (String.ofList (cs.takeWhile fun c => c != '\'' && isPrintable c), rest)
  | _ => none

/-- The end of a text block: three quotes, before which up to two more belong to
the text. -/
def blockEnd (quote : Char) (found : List Char) (cs : List Char) : Option (String × List Char) :=
  let run := (cs.takeWhile (· == quote)).length
  if run ≤ 5 then
    some (String.ofList (found.reverse ++ List.replicate (run - 3) quote), cs.drop run)
  else none

/-- The rest of a text block, behind its opening quotes and first line ending. -/
def blockRest (quote : Char) (escapes : Bool) : (fuel : Nat) → (found : List Char) → Step String
  | 0, _, _ => none
  | fuel + 1, found, cs =>
    if [quote, quote, quote].isPrefixOf cs then blockEnd quote found cs
    else match cs with
      | '\n' :: rest => blockRest quote escapes fuel ('\n' :: found) rest
      | '\r' :: '\n' :: rest => blockRest quote escapes fuel ('\n' :: found) rest
      | c :: rest =>
        if c = '\\' ∧ escapes then
          match newline (skipSpace rest) with
          | some rest => blockRest quote escapes fuel found (skipLines rest)
          | none =>
            match escape rest with
            | some (c, rest) => blockRest quote escapes fuel (c :: found) rest
            | none => none
        else if isPrintable c then blockRest quote escapes fuel (c :: found) rest
        else none
      | [] => none

/-- A text of any of the four kinds. -/
def quoted : Step String
  | '"' :: '"' :: '"' :: rest =>
    let rest := (newline rest).getD rest
    blockRest '"' true (rest.length + 1) [] rest
  | '"' :: rest => basicRest (rest.length + 1) [] rest
  | '\'' :: '\'' :: '\'' :: rest =>
    let rest := (newline rest).getD rest
    blockRest '\'' false (rest.length + 1) [] rest
  | '\'' :: rest => literalRest rest
  | _ => none

/-! ## Numbers -/

/-- Digits, of which two may have an underscore between them. -/
def digitRun (isDigit : Char → Bool) : (found : List Char) → List Char → List Char × List Char
  | found, c :: d :: rest =>
    if isDigit c then digitRun isDigit (c :: found) (d :: rest)
    else if c = '_' ∧ isDigit d ∧ !found.isEmpty then digitRun isDigit (d :: found) rest
    else (found.reverse, c :: d :: rest)
  | found, [c] => if isDigit c then ((c :: found).reverse, []) else (found.reverse, [c])
  | found, [] => (found.reverse, [])

/-- One or more digits. -/
def digits (isDigit : Char → Bool) : Step (List Char) := fun cs =>
  match digitRun isDigit [] cs with
  | ([], _) => none
  | (ds, rest) => some (ds, rest)

/-- An integer that fits 64 bits. -/
def integer (negative : Bool) (base : Nat) (ds : List Char) : Option Value :=
  let n : Nat := ds.foldl (fun n c => n * base + (hexDigit? c).getD 0) 0
  let z : Int := if negative then -(n : Int) else n
  if -(twoTo 63 : Int) ≤ z ∧ z < (twoTo 63 : Int) then some (.integer z) else none

/-- An integer in another base, behind its mark. -/
def based (base : Nat) : Step Value := fun cs => do
  let (ds, rest) ← digits (fun c => ((hexDigit? c).getD 16) < base) cs
  return (← integer false base ds, rest)

/-- The whole part of a decimal number: no needless zero. -/
def wholePart : Step (List Char)
  | '0' :: rest => some (['0'], rest)
  | cs => digits Char.isDigit cs

/-- An exponent, if there is one. -/
def exponentPart : Step (Option Int)
  | c :: rest =>
    if c = 'e' ∨ c = 'E' then
      let (negative, rest) := match rest with
        | '-' :: rest => (true, rest)
        | '+' :: rest => (false, rest)
        | rest => (false, rest)
      (digits Char.isDigit rest).map fun (ds, rest) =>
        let n : Int := (Calendar.digitsValue ds : Nat)
        (some (if negative then -n else n), rest)
    else some (none, c :: rest)
  | [] => some (none, [])

/-- The real of its digits and power of ten; a positive one beyond the largest
number is refused. -/
def real (negative : Bool) (ds : List Char) (power : Int) : Option Value :=
  let n := Calendar.digitsValue ds
  let bounded := max (-5000) (min 5000 power)
  let x : Binary64 :=
    if 0 ≤ bounded then Binary.ofRatio negative (n * tenTo bounded.toNat) 1
    else Binary.ofRatio negative n (tenTo (-bounded).toNat)
  if x.isFinite || negative then some (.real x) else none

/-- A number behind its sign, of which `signed` tells whether it is there. -/
def unsigned (signed negative : Bool) : Step Value
  | 'i' :: 'n' :: 'f' :: rest => some (.real (Binary.infinity negative), rest)
  | 'n' :: 'a' :: 'n' :: rest => some (.real Binary.nan, rest)
  | cs => do
    let (whole, rest) ← wholePart cs
    match rest with
    | '.' :: rest =>
      let (part, rest) ← digits Char.isDigit rest
      let (exponent, rest) ← exponentPart rest
      let v ← real negative (whole ++ part) (exponent.getD 0 - part.length)
      return (v, rest)
    | c :: rest =>
      if c = 'e' ∨ c = 'E' then
        let (exponent, rest) ← exponentPart (c :: rest)
        let v ← real negative whole (exponent.getD 0)
        return (v, rest)
      else if whole = ['0'] ∧ !signed then
        match c with
        | 'x' => based 16 rest
        | 'o' => based 8 rest
        | 'b' => based 2 rest
        | _ => return (← integer negative 10 whole, c :: rest)
      else return (← integer negative 10 whole, c :: rest)
    | [] => return (← integer negative 10 whole, [])

/-! ## Dates and times -/

/-- A number of two digits up to `most`. -/
def pair (most : Nat) (cs : List Char) : Option (Nat × List Char) := do
  let (n, rest) ← Calendar.fixed 2 cs
  if n ≤ most then some (n, rest) else none

/-- One character that must be there. -/
def mark (c : Char) : List Char → Option (List Char)
  | d :: rest => if c = d then some rest else none
  | [] => none

/-- The input behind a time of day. -/
def timeOfDay (cs : List Char) : Option (List Char) := do
  let (_, cs) ← pair 23 cs
  let (_, cs) ← pair 59 (← mark ':' cs)
  let (_, cs) ← pair 60 (← mark ':' cs)
  match cs with
  | '.' :: rest =>
    let (_, rest) ← Calendar.number rest.length rest
    return rest
  | cs => return cs

/-- The input behind an offset from universal time, if there is one. -/
def timeOffset (cs : List Char) : List Char :=
  match cs with
  | 'Z' :: rest | 'z' :: rest => rest
  | '+' :: rest | '-' :: rest =>
    match (do
      let (_, rest) ← pair 23 rest
      let (_, rest) ← pair 59 (← mark ':' rest)
      return rest) with
    | some rest => rest
    | none => cs
  | cs => cs

/-- The input behind a day. -/
def day (cs : List Char) : Option (List Char) := do
  let (y, cs) ← Calendar.fixed 4 cs
  let (m, cs) ← pair 12 (← mark '-' cs)
  let (d, cs) ← pair 31 (← mark '-' cs)
  if 1 ≤ m ∧ 1 ≤ d ∧ d ≤ Calendar.monthLength y m then some cs else none

/-- The input behind a day, with or without a time of day behind it. -/
def dayAndTime (cs : List Char) : Option (List Char) := do
  let cs ← day cs
  match cs with
  | c :: rest =>
    if c = 'T' ∨ c = 't' ∨ c = ' ' then
      match timeOfDay rest with
      | some rest => return timeOffset rest
      | none => return c :: rest
    else return c :: rest
  | [] => return []

/-- A day, a time of day or both, kept as its text. -/
def dateTime : Step Value := fun cs =>
  match (dayAndTime cs).orElse fun _ => timeOfDay cs with
  | some rest =>
    some (.record [("datetime", .text (String.ofList (cs.take (cs.length - rest.length))))], rest)
  | none => none

/-- A number, a date or a time. -/
def number : Step Value := fun cs =>
  match dateTime cs with
  | some found => some found
  | none =>
    match cs with
    | '+' :: rest => unsigned true false rest
    | '-' :: rest => unsigned true true rest
    | cs => unsigned false false cs

end MediaRefresh.Toml
