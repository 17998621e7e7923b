import MediaRefresh.Json.Number

/-!
# JSON: writing

Documents are written on one line without blanks.  In texts only the quote, the
backslash and the control characters are escaped.
-/

set_option autoImplicit false

namespace MediaRefresh.Json

/-- One hexadecimal digit. -/
def hexChar (n : Nat) : Char := (Nat.toDigits 16 n).headD '0'

/-- The characters that stand for `c` between quotes. -/
def escape (c : Char) : List Char :=
  if c = '"' then ['\\', '"']
  else if c = '\\' then ['\\', '\\']
  else if c.toNat < 0x20 then
    ['\\', 'u', '0', '0', hexChar (c.toNat / 16), hexChar (c.toNat % 16)]
  else [c]

/-- A quoted text. -/
def quote (s : String) : String := String.ofList ('"' :: s.toList.flatMap escape ++ ['"'])

mutual

/-- A document as text. -/
def write : Value → String
  | .null => "null"
  | .bool b => if b then "true" else "false"
  | .integer n => toString n
  | .real x => writeReal x
  | .text s => quote s
  | .list items => "[" ++ ",".intercalate (writeItems items) ++ "]"
  | .record fields => "\x7b" ++ ",".intercalate (writeFields fields) ++ "\x7d"

/-- The values of a list, each as text. -/
def writeItems : List Value → List String
  | [] => []
  | v :: rest => write v :: writeItems rest

/-- The fields of a record, each as text. -/
def writeFields : List (String × Value) → List String
  | [] => []
  | (name, v) :: rest => (quote name ++ ":" ++ write v) :: writeFields rest

end

end MediaRefresh.Json
