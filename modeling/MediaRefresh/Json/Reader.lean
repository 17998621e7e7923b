import MediaRefresh.Json.Number

/-!
# JSON: reading

A reader of one construct consumes a prefix of the characters and returns the
rest.  Of two fields of one name the later counts.  The nesting of lists and
records is bounded by a fuel that the wrapper `read?` sets to the length of the
text, which no document can exceed.
-/

set_option autoImplicit false

namespace MediaRefresh.Json

open Numeric

/-- Consumes a prefix of the input and returns what it found and the rest. -/
abbrev Step (α : Type) := List Char → Option (α × List Char)

/-- The input without leading blanks. -/
def skipBlanks (cs : List Char) : List Char :=
  cs.dropWhile fun c => c == ' ' || c == '\t' || c == '\n' || c == '\r'

/-- The value of a hexadecimal digit. -/
def hexDigit? (c : Char) : Option Nat :=
  if '0' ≤ c ∧ c ≤ '9' then some (c.toNat - '0'.toNat)
  else if 'a' ≤ c ∧ c ≤ 'f' then some (c.toNat - 'a'.toNat + 10)
  else if 'A' ≤ c ∧ c ≤ 'F' then some (c.toNat - 'A'.toNat + 10)
  else none

/-- The number of four hexadecimal digits. -/
def hexUnit? (a b c d : Char) : Option Nat := do
  let a ← hexDigit? a
  let b ← hexDigit? b
  let c ← hexDigit? c
  let d ← hexDigit? d
  return ((a * 16 + b) * 16 + c) * 16 + d

/-- The character of a one-letter escape. -/
def escaped? : Char → Option Char
  | '"' => some '"'
  | '\\' => some '\\'
  | '/' => some '/'
  | 'b' => some '\x08'
  | 'f' => some '\x0c'
  | 'n' => some '\n'
  | 'r' => some '\r'
  | 't' => some '\t'
  | _ => none

/-- The rest of a quoted text after its opening quote.  `high` is the first half
of a character that is written as two units; the second half must follow it. -/
def quotedRest : (high : Option Nat) → (found : List Char) → Step String
  | high, found, '\\' :: 'u' :: a :: b :: c :: d :: rest =>
    match hexUnit? a b c d with
    | none => none
    | some unit =>
      match high with
      | some h =>
        if 0xDC00 ≤ unit ∧ unit ≤ 0xDFFF then
          quotedRest none
            (Char.ofNat (0x10000 + (h - 0xD800) * 0x400 + (unit - 0xDC00)) :: found) rest
        else none
      | none =>
        if 0xD800 ≤ unit ∧ unit ≤ 0xDBFF then quotedRest (some unit) found rest
        else if 0xDC00 ≤ unit ∧ unit ≤ 0xDFFF then none
        else quotedRest none (Char.ofNat unit :: found) rest
  | some _, _, _ => none
  | none, found, '\\' :: c :: rest =>
    match escaped? c with
    | some e => quotedRest none (e :: found) rest
    | none => none
  | none, found, '"' :: rest => some (String.ofList found.reverse, rest)
  | none, found, c :: rest =>
    if c.toNat < 0x20 then none else quotedRest none (c :: found) rest
  | none, _, [] => none

/-- The decimal digits at the front. -/
def digits (cs : List Char) : List Nat × List Char :=
  ((cs.takeWhile Char.isDigit).map fun c => c.toNat - '0'.toNat, cs.dropWhile Char.isDigit)

/-- The digits before the point: one or more, without a needless zero. -/
def wholePart : Step (List Nat) := fun cs =>
  match digits cs with
  | ([], _) => none
  | (0 :: _ :: _, _) => none
  | (ds, rest) => some (ds, rest)

/-- The digits after a point, if there is one. -/
def fractionPart : Step (Option (List Nat))
  | '.' :: rest =>
    match digits rest with
    | ([], _) => none
    | (ds, rest) => some (some ds, rest)
  | cs => some (none, cs)

/-- Digits of an exponent with the given sign. -/
def exponentDigits (negative : Bool) : Step (Option Int) := fun cs =>
  match digits cs with
  | ([], _) => none
  | (ds, rest) =>
    let n : Nat := ds.foldl (fun n d => n * 10 + d) 0
    some (some (if negative then -(n : Int) else n), rest)

/-- An exponent, if there is one. -/
def exponentPart : Step (Option Int)
  | c :: rest =>
    if c = 'e' ∨ c = 'E' then
      match rest with
      | '-' :: rest => exponentDigits true rest
      | '+' :: rest => exponentDigits false rest
      | rest => exponentDigits false rest
    else some (none, c :: rest)
  | [] => some (none, [])

/-- A number. -/
def number : Step Value := fun cs => do
  let (negative, cs) := match cs with | '-' :: rest => (true, rest) | cs => (false, cs)
  let (whole, cs) ← wholePart cs
  let (fraction, cs) ← fractionPart cs
  let (exponent, cs) ← exponentPart cs
  let v ← NumberText.value? ⟨negative, whole, fraction, exponent⟩
  return (v, cs)

mutual

/-- A value after leading blanks. -/
def value : (fuel : Nat) → Step Value
  | 0, _ => none
  | fuel + 1, cs =>
    match skipBlanks cs with
    | '"' :: rest => (quotedRest none [] rest).map fun (s, rest) => (.text s, rest)
    | '[' :: rest =>
      match skipBlanks rest with
      | ']' :: rest => some (.list [], rest)
      | _ => (items fuel [] rest).map fun (vs, rest) => (.list vs, rest)
    | '\x7b' :: rest =>
      match skipBlanks rest with
      | '\x7d' :: rest => some (.record [], rest)
      | _ => (fields fuel [] rest).map fun (fs, rest) => (.record fs, rest)
    | 't' :: 'r' :: 'u' :: 'e' :: rest => some (.bool true, rest)
    | 'f' :: 'a' :: 'l' :: 's' :: 'e' :: rest => some (.bool false, rest)
    | 'n' :: 'u' :: 'l' :: 'l' :: rest => some (.null, rest)
    | cs => number cs

/-- The values of a list up to its closing bracket, the ones found so far in
reverse. -/
def items : (fuel : Nat) → (found : List Value) → Step (List Value)
  | 0, _, _ => none
  | fuel + 1, found, cs => do
    let (v, rest) ← value fuel cs
    match skipBlanks rest with
    | ',' :: rest => items fuel (v :: found) rest
    | ']' :: rest => some ((v :: found).reverse, rest)
    | _ => none

/-- The fields of a record up to its closing brace. -/
def fields : (fuel : Nat) → (found : List (String × Value)) → Step (List (String × Value))
  | 0, _, _ => none
  | fuel + 1, found, cs =>
    match skipBlanks cs with
    | '"' :: rest => do
      let (name, rest) ← quotedRest none [] rest
      match skipBlanks rest with
      | ':' :: rest => do
        let (v, rest) ← value fuel rest
        let found := Value.putField name v found
        match skipBlanks rest with
        | ',' :: rest => fields fuel found rest
        | '\x7d' :: rest => some (found, rest)
        | _ => none
      | _ => none
    | _ => none

end

/-- The document that a text is, or nothing when it is not JSON. -/
def read? (s : String) : Option Value :=
  let cs := s.toList
  match value (2 * cs.length + 2) cs with
  | some (v, rest) => if (skipBlanks rest).isEmpty then some v else none
  | none => none

end MediaRefresh.Json
