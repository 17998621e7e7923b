import MediaRefresh.Value.Basic

/-!
# Values: written forms of records

A record is written with all its fields, but a reader does not need all of them:
an absent optional value and a field that holds its declared default may be left
out.  A `Form` is a written document that carries this mark at each field, and
`Form.value` is the document itself.  `Form.Redrawn` says which other documents
stand for the same record: fields in any order, unknown fields added, marked
fields left out.
-/

set_option autoImplicit false

namespace MediaRefresh

/-- A document whose record fields are marked when they may be left out. -/
inductive Form where
  /-- a part without records of its own -/
  | leaf (v : Value)
  /-- parts in order -/
  | list (items : List Form)
  /-- named parts, each with its mark -/
  | record (fields : List (String × Bool × Form))
  deriving Inhabited

namespace Form

mutual

/-- The document with every field written. -/
def value : Form → Value
  | .leaf v => v
  | .list items => .list (values items)
  | .record fields => .record (fieldValues fields)

/-- The documents of a list of forms. -/
def values : List Form → List Value
  | [] => []
  | f :: rest => f.value :: values rest

/-- The fields of a record as written. -/
def fieldValues : List (String × Bool × Form) → List (String × Value)
  | [] => []
  | (name, _, f) :: rest => (name, f.value) :: fieldValues rest

end

/-- A field that must be there. -/
def always (name : String) (f : Form) : String × Bool × Form := (name, false, f)

/-- A text that must be there. -/
def text (name s : String) : String × Bool × Form := always name (.leaf (.text s))

/-- A truth value that must be there. -/
def flag (name : String) (b : Bool) : String × Bool × Form := always name (.leaf (.bool b))

/-- An optional field; `null` may be left out. -/
def optional {α : Type} (name : String) (write : α → Value) (a : Option α) :
    String × Bool × Form :=
  (name, a.isNone, .leaf (Value.ofOption write a))

/-- A field with a declared default; it may be left out when `standard` says that
it holds it. -/
def defaulted (name : String) (standard : Bool) (f : Form) : String × Bool × Form :=
  (name, standard, f)

/-- A list of texts as a form. -/
def texts (names : List String) : Form := .leaf (.list (names.map .text))

mutual

/-- `f.Redrawn v`: the document `v` is that of `f` redrawn.  At any depth the fields of
records stand in any order, marked fields may be left out and unknown fields added; a table
of entries, which has no declared fields, keeps its entries in any order. -/
inductive Redrawn : Form → Value → Prop where
  | leaf (v : Value) : Redrawn (.leaf v) v
  | table {entries given : List (String × Value)} :
      given.Perm entries → Redrawn (.leaf (.record entries)) (.record given)
  | list {items : List Form} {vs : List Value} :
      RedrawnAll items vs → Redrawn (.list items) (.list vs)
  | record {fields : List (String × Bool × Form)} {kept unknown given : List (String × Value)} :
      RedrawnFields fields kept → (∀ u ∈ unknown, u.1 ∉ fields.map Prod.fst) →
      given.Perm (kept ++ unknown) → Redrawn (.record fields) (.record given)

/-- One redrawn document for each form. -/
inductive RedrawnAll : List Form → List Value → Prop where
  | nil : RedrawnAll [] []
  | cons {f : Form} {v : Value} {fs : List Form} {vs : List Value} :
      Redrawn f v → RedrawnAll fs vs → RedrawnAll (f :: fs) (v :: vs)

/-- The fields that are not left out, redrawn. -/
inductive RedrawnFields : List (String × Bool × Form) → List (String × Value) → Prop where
  | nil : RedrawnFields [] []
  | keep {name : String} {mark : Bool} {f : Form} {v : Value}
      {fields : List (String × Bool × Form)} {kept : List (String × Value)} :
      Redrawn f v → RedrawnFields fields kept →
      RedrawnFields ((name, mark, f) :: fields) ((name, v) :: kept)
  | leaveOut {name : String} {f : Form}
      {fields : List (String × Bool × Form)} {kept : List (String × Value)} :
      RedrawnFields fields kept → RedrawnFields ((name, true, f) :: fields) kept

end

end Form

end MediaRefresh
