import MediaRefresh.Value.Decode
import MediaRefresh.Json.Reader

/-!
# Items: identifiers

An identifier is a universally unique id, held as its 32 hexadecimal digits.
Its canonical text has small letters in groups of 8, 4, 4, 4 and 12; it is read
in that form, without hyphens, in braces, or behind `urn:uuid:`, with letters of
either case.
-/

set_option autoImplicit false

namespace MediaRefresh

/-- The identifier of a library item. -/
structure ItemId where
  digits : List (Fin 16)
  length_digits : digits.length = 32
  deriving DecidableEq

namespace ItemId

/-- The identifier whose digits are all zero. -/
def zero : ItemId := ⟨List.replicate 32 0, by simp⟩

instance : Inhabited ItemId := ⟨zero⟩

/-- An identifier from 32 digits. -/
def ofDigits? (ds : List (Fin 16)) : Option ItemId :=
  if h : ds.length = 32 then some ⟨ds, h⟩ else none

/-- The character of a digit. -/
def digitChar (d : Fin 16) : Char := (Nat.digitChar d.val)

/-- The digit that a character stands for. -/
def digit? (c : Char) : Option (Fin 16) := (Json.hexDigit? c).map fun n => Fin.ofNat 16 n

/-- Digits grouped as in the canonical text. -/
def grouped (cs : List Char) : List Char :=
  cs.take 8 ++ '-' :: ((cs.drop 8).take 4 ++ '-' :: ((cs.drop 12).take 4 ++ '-' ::
    ((cs.drop 16).take 4 ++ '-' :: cs.drop 20)))

/-- The canonical text. -/
def text (id : ItemId) : String := String.ofList (grouped (id.digits.map digitChar))

instance : ToString ItemId := ⟨text⟩

instance : Repr ItemId := ⟨fun id _ => id.text⟩

/-- Reads 32 digits without hyphens. -/
def plain? (cs : List Char) : Option ItemId := (cs.mapM digit?).bind ofDigits?

/-- Reads digits with hyphens in the canonical places. -/
def hyphenated? (cs : List Char) : Option ItemId :=
  let bare := cs.take 8 ++ ((cs.drop 9).take 4 ++ ((cs.drop 14).take 4 ++
    ((cs.drop 19).take 4 ++ cs.drop 24)))
  if cs = grouped bare then plain? bare else none

/-- Reads a hyphenated identifier in braces. -/
def braced? : List Char → Option ItemId
  | '\x7b' :: cs => if cs.getLast? = some '\x7d' then hyphenated? cs.dropLast else none
  | _ => none

/-- Reads a hyphenated identifier behind `urn:uuid:` in letters of either case. -/
def named? (cs : List Char) : Option ItemId :=
  if (cs.take 9).map Char.toLower = "urn:uuid:".toList then hyphenated? (cs.drop 9) else none

/-- Reads an identifier from any of its four forms, which differ in length. -/
def parse? (s : String) : Option ItemId :=
  let cs := s.toList
  match cs.length with
  | 32 => plain? cs
  | 36 => hyphenated? cs
  | 38 => braced? cs
  | 45 => named? cs
  | _ => none

/-- The number that the digits write. -/
def value (id : ItemId) : Nat := id.digits.foldl (fun n d => 16 * n + d.val) 0

/-- The order of identifiers: that of their numbers, and as all have the same number
of digits also that of their texts. -/
def before (a b : ItemId) : Bool := a.value ≤ b.value

/-- An identifier written as its text. -/
def toValue (id : ItemId) : Value := .text id.text

/-- Reads an identifier from a text in any form. -/
def decode : Decoder ItemId := fun v => (Decode.text v).bind parse?

end ItemId

end MediaRefresh
