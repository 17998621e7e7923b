import MediaRefresh.Numeric.Binary

/-!
# Values: the data tree that documents are read into

Settings files and exchanged records are both trees of the same few kinds of
node.  An integer and a real are different nodes even when they are equal as
numbers, because a field that wants an integer refuses a real.
-/

set_option autoImplicit false

namespace MediaRefresh

/-- A node of a document. -/
inductive Value where
  /-- no value -/
  | null
  /-- a truth value -/
  | bool (b : Bool)
  /-- a whole number written as such -/
  | integer (n : Int)
  /-- a number written with a point or an exponent -/
  | real (x : Numeric.Binary64)
  /-- a text -/
  | text (s : String)
  /-- values in order -/
  | list (items : List Value)
  /-- named values -/
  | record (fields : List (String × Value))
  deriving Inhabited, Repr

namespace Value

/-- The value of the first field called `name`, if the node is a record that has one. -/
def field? (name : String) : Value → Option Value
  | .record fields => fields.lookup name
  | _ => none

/-- The value under `name`, `null` when there is none. -/
def get (v : Value) (name : String) : Value := (v.field? name).getD .null

/-- Gives `name` the value `v` in a list of fields, in its place if it has one. -/
def putField (name : String) (v : Value) : List (String × Value) → List (String × Value)
  | [] => [(name, v)]
  | (n, w) :: rest => if n = name then (name, v) :: rest else (n, w) :: putField name v rest

/-- A record with `name` set to `v`; any other node is left alone. -/
def put (node : Value) (name : String) (v : Value) : Value :=
  match node with
  | .record fields => .record (putField name v fields)
  | other => other

/-- Whether the node is `null`. -/
def isNull : Value → Bool
  | .null => true
  | _ => false

/-- An optional value, `null` when absent. -/
def ofOption {α : Type} (write : α → Value) : Option α → Value
  | none => .null
  | some a => write a

/-- A text or `null`. -/
def ofText? : Option String → Value := ofOption .text

end Value

end MediaRefresh
