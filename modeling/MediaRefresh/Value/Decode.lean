import MediaRefresh.Value.Basic

/-!
# Values: reading typed data out of a document

A decoder takes a node to the datum it stands for, or to nothing.  Records are
read by field name, or by position from a list.  The two document formats differ
in three small decisions, which are the fields of `Dialect`.
-/

set_option autoImplicit false

namespace MediaRefresh

open Numeric

/-- Reads a datum from a node. -/
abbrev Decoder (α : Type) := Value → Option α

/-- What a document format decides about records and named alternatives. -/
structure Dialect where
  /-- whether a positional record may not have more elements than fields -/
  exact : Bool
  /-- what may stand under the name of an alternative that carries nothing -/
  emptyBody : Value → Bool

namespace Dialect

/-- Exchanged records: a positional record has no extra elements, and an
alternative carries `null`. -/
def exchange : Dialect := ⟨true, Value.isNull⟩

/-- The parts of a record that is chosen by a tag: as in `exchange`, but an
alternative may also carry the empty record. -/
def tagged : Dialect :=
  ⟨true, fun v => match v with | .null => true | .record [] => true | _ => false⟩

/-- Settings files: extra elements of a positional record are passed over, and an
alternative carries an empty table or list. -/
def settings : Dialect :=
  ⟨false, fun v => match v with | .record [] => true | .list [] => true | _ => false⟩

end Dialect

namespace Decode

/-- A text. -/
def text : Decoder String
  | .text s => some s
  | _ => none

/-- A truth value. -/
def bool : Decoder Bool
  | .bool b => some b
  | _ => none

/-- An integer between `low` and `high`. -/
def integerIn (low high : Int) : Decoder Int
  | .integer n => if low ≤ n ∧ n ≤ high then some n else none
  | _ => none

/-- A signed integer of 32 bits. -/
def int32 : Decoder Int := integerIn (-2147483648) 2147483647

/-- A natural number below `bound`. -/
def natBelow (bound : Nat) : Decoder Nat
  | .integer (.ofNat n) => if n < bound then some n else none
  | _ => none

/-- A natural number of 32 bits. -/
def nat32 : Decoder Nat := natBelow (twoTo 32)

/-- A natural number of 64 bits. -/
def nat64 : Decoder Nat := natBelow (twoTo 64)

/-- A number of the given format; integers are accepted. -/
def number (f : Format) : Decoder (Binary f)
  | .integer n => some (Binary.ofInt n)
  | .real x => some (x.convert f)
  | _ => none

/-- A number in double precision, kept as it is when it is a real. -/
def double : Decoder Binary64
  | .integer n => some (Binary.ofInt n)
  | .real x => some x
  | _ => none

/-- A list of data of one kind. -/
def list {α : Type} (item : Decoder α) : Decoder (List α)
  | .list vs => vs.mapM item
  | _ => none

/-- A list of texts. -/
def texts : Decoder (List String) := list text

/-- One of the named alternatives in `all`: its name, or a record of one field
under that name whose value carries nothing. -/
def named {α : Type} (d : Dialect) (all : List α) (name : α → String) : Decoder α
  | .text s => all.find? fun a => name a == s
  | .record [(s, body)] => if d.emptyBody body then all.find? fun a => name a == s else none
  | _ => none

end Decode

/-- What a record holds in the place of one field. -/
inductive Slot where
  /-- a value -/
  | given (v : Value)
  /-- nothing, in a record by names -/
  | missing
  /-- nothing, in a record by positions that is too short -/
  | beyond

/-- The fields of a record that is being read. -/
structure Fields where
  slot : String → Slot

namespace Fields

/-- The fields called `names`, in declaration order, of a record by names or by
positions. -/
def of? (d : Dialect) (names : List String) : Decoder Fields
  | .record fields =>
    some ⟨fun name => match fields.lookup name with | some v => .given v | none => .missing⟩
  | .list vs =>
    if d.exact && names.length < vs.length then none
    else
      some ⟨fun name =>
        match (names.zip vs).lookup name with | some v => .given v | none => .beyond⟩
  | _ => none

/-- A field that must be there. -/
def required {α : Type} (fs : Fields) (name : String) (read : Decoder α) : Option α :=
  match fs.slot name with
  | .given v => read v
  | _ => none

/-- A field that may be `null`, or missing by name. -/
def optional {α : Type} (fs : Fields) (name : String) (read : Decoder α) : Option (Option α) :=
  match fs.slot name with
  | .given .null => some none
  | .given v => (read v).map some
  | .missing => some none
  | .beyond => none

/-- A field with a declared default; a `null` is not the default. -/
def defaulted {α : Type} (fs : Fields) (name : String) (standard : α) (read : Decoder α) :
    Option α :=
  match fs.slot name with
  | .given v => read v
  | _ => some standard

/-- An optional field that may be missing by name or by position. -/
def optionalDefaulted {α : Type} (fs : Fields) (name : String) (read : Decoder α) :
    Option (Option α) :=
  match fs.slot name with
  | .given .null => some none
  | .given v => (read v).map some
  | _ => some none

end Fields

end MediaRefresh
