import MediaRefresh.Toml.Scalar

/-!
# TOML: documents

A document is a sequence of lines that set keys and open tables.  While it is
read, each table remembers whether it has only been implied by a longer name and
whether dotted keys made it, because a table may be opened by one header only and
may not be continued by keys of the other kind.
-/

set_option autoImplicit false

namespace MediaRefresh.Toml

open Json (Step)

/-! ## Tables under construction -/

/-- A table, an array of tables or a finished value. -/
inductive Node where
  /-- a finished value, inline tables included -/
  | value (v : Value)
  /-- a table: whether it is only implied, and whether dotted keys made it -/
  | table (implied dotted : Bool) (entries : List (String × Node))
  /-- an array of tables; keys go into the last one -/
  | tables (elements : List (List (String × Node)))
  deriving Inhabited

/-- A table that is open for changes. -/
structure Table where
  implied : Bool
  dotted : Bool
  entries : List (String × Node)

namespace Node

mutual

/-- The finished value. -/
def finish : Node → Value
  | .value v => v
  | .table _ _ entries => .record (finishEntries entries)
  | .tables elements => .list (finishElements elements)

/-- The finished values of the entries of a table. -/
def finishEntries : List (String × Node) → List (String × Value)
  | [] => []
  | (name, n) :: rest => (name, n.finish) :: finishEntries rest

/-- The finished tables of an array. -/
def finishElements : List (List (String × Node)) → List Value
  | [] => []
  | entries :: rest => .record (finishEntries entries) :: finishElements rest

end

end Node

namespace Table

/-- Changes the entry called `name`, or adds it. -/
def update (name : String) (change : Option Node → Option Node) :
    List (String × Node) → Option (List (String × Node))
  | [] => (change none).map fun n => [(name, n)]
  | (k, n) :: rest =>
    if k = name then (change (some n)).map fun n => (k, n) :: rest
    else (update name change rest).map fun rest => (k, n) :: rest

/-- Changes the table at the end of `path`.  Tables on the way are made when they
are missing; dotted keys must not pass through a table that a header opened. -/
def inside (dotted : Bool) (act : Table → Option Table) : List String → Table → Option Table
  | [], t => act t
  | name :: path, t =>
    (update name (fun
      | none => (inside dotted act path ⟨true, dotted, []⟩).map fun t =>
          .table t.implied t.dotted t.entries
      | some (.value _) => none
      | some (.table implied made entries) =>
        if dotted && !implied then none
        else (inside dotted act path ⟨implied, made, entries⟩).map fun t =>
          .table t.implied t.dotted t.entries
      | some (.tables elements) =>
        (inside dotted act path ⟨false, false, elements.getLastD []⟩).map fun t =>
          .tables (elements.dropLast ++ [t.entries])) t.entries).map
      fun entries => { t with entries := entries }

/-- Sets the key at the end of `path` in a table; it must be new. -/
def setKey (path : List String) (name : String) (v : Value) : Table → Option Table :=
  inside true (fun t =>
    if t.dotted == path.isEmpty then none
    else (update name (fun | none => some (.value v) | some _ => none) t.entries).map
      fun entries => { t with entries := entries }) path

/-- Opens the table called `name`, which may only have been implied so far. -/
def openTable (name : String) (t : Table) : Option Table :=
  (update name (fun
    | none => some (.table false false [])
    | some (.table true false entries) => some (.table false false entries)
    | _ => none) t.entries).map fun entries => { t with entries := entries }

/-- Adds a table to the array called `name`. -/
def openElement (name : String) (t : Table) : Option Table :=
  (update name (fun
    | none => some (.tables [[]])
    | some (.tables elements) => some (.tables (elements ++ [[]]))
    | _ => none) t.entries).map fun entries => { t with entries := entries }

/-- The table without entries. -/
def empty : Table := ⟨false, false, []⟩

/-- The finished value of a table. -/
def finish (t : Table) : Value := .record (Node.finishEntries t.entries)

end Table

/-- Arrays, inline tables and the parts of keys nest less deep than this. -/
def nestingBound : Nat := 80

/-! ## Keys -/

/-- A character of a key without quotes. -/
def isBare (c : Char) : Bool := c.isAlphanum || c == '_' || c == '-'

/-- One part of a key. -/
def keyPart : Step String
  | '"' :: rest => basicRest (rest.length + 1) [] rest
  | '\'' :: rest => literalRest rest
  | cs =>
    let name := cs.takeWhile isBare
    if name.isEmpty then none else some (String.ofList name, cs.dropWhile isBare)

/-- The parts of a key behind those already found, and the spaces behind it. -/
def keyRest : (fuel : Nat) → (found : List String) → Step (List String)
  | 0, _, _ => none
  | fuel + 1, found, cs => do
    let (part, rest) ← keyPart cs
    match skipSpace rest with
    | '.' :: rest => keyRest fuel (part :: found) (skipSpace rest)
    | rest => some ((part :: found).reverse, rest)

/-- A key: its parts, of which there is at least one, and the spaces around it. -/
def key : Step (List String) := fun cs =>
  (keyRest (cs.length + 1) [] (skipSpace cs)).filter fun found =>
    found.1.length < nestingBound

/-! ## Values -/

/-- The input behind a comment, if there is one. -/
def skipComment : List Char → List Char
  | '#' :: rest => rest.dropWhile isPrintable
  | cs => cs

/-- The input without blanks, line endings and comments. -/
def skipFiller : (fuel : Nat) → List Char → List Char
  | 0, cs => cs
  | fuel + 1, cs =>
    match skipLines cs with
    | '#' :: rest => skipFiller fuel (rest.dropWhile isPrintable)
    | cs => cs

mutual

/-- A value inside `depth` arrays and inline tables. -/
def value (depth : Nat) : (fuel : Nat) → Step Value
  | 0, _ => none
  | fuel + 1, cs =>
    match cs with
    | '[' :: rest =>
      if depth + 1 < nestingBound then
        (elements (depth + 1) fuel [] rest).map fun (vs, rest) => (.list vs, rest)
      else none
    | '\x7b' :: rest =>
      if depth + 1 < nestingBound then
        match skipSpace rest with
        | '\x7d' :: rest => some (.record [], rest)
        | rest => (pairs (depth + 1) fuel .empty rest).map fun (t, rest) => (t.finish, rest)
      else none
    | 't' :: 'r' :: 'u' :: 'e' :: rest => some (.bool true, rest)
    | 'f' :: 'a' :: 'l' :: 's' :: 'e' :: rest => some (.bool false, rest)
    | c :: rest =>
      if c = '"' ∨ c = '\'' then (quoted (c :: rest)).map fun (s, rest) => (.text s, rest)
      else number (c :: rest)
    | [] => none

/-- The values of an array up to its closing bracket. -/
def elements (depth : Nat) : (fuel : Nat) → (found : List Value) → Step (List Value)
  | 0, _, _ => none
  | fuel + 1, found, cs =>
    match skipFiller cs.length cs with
    | ']' :: rest => some (found.reverse, rest)
    | cs => do
      let (v, rest) ← value depth fuel cs
      match skipFiller rest.length rest with
      | ',' :: rest => elements depth fuel (v :: found) rest
      | ']' :: rest => some ((v :: found).reverse, rest)
      | _ => none

/-- The keys of an inline table up to its closing brace. -/
def pairs (depth : Nat) : (fuel : Nat) → (found : Table) → Step Table
  | 0, _, _ => none
  | fuel + 1, found, cs => do
    let (path, rest) ← key cs
    match rest with
    | '=' :: rest =>
      let (v, rest) ← value depth fuel (skipSpace rest)
      let found ← found.setKey path.dropLast (path.getLastD "") v
      match skipSpace rest with
      | ',' :: rest => pairs depth fuel found rest
      | '\x7d' :: rest => some (found, rest)
      | _ => none
    | _ => none

end

/-! ## Lines -/

/-- What has been read: the root table and the table that keys go into. -/
structure Draft where
  root : Table
  current : List String

namespace Draft

/-- Sets a key in the current table. -/
def setKey (d : Draft) (path : List String) (v : Value) : Option Draft :=
  (d.root.inside false (Table.setKey path.dropLast (path.getLastD "") v) d.current).map
    fun root => { d with root := root }

/-- Opens a table, or an element of an array of tables, at `path`. -/
def openAt (d : Draft) (element : Bool) (path : List String) : Option Draft :=
  let act := if element then Table.openElement else Table.openTable
  (d.root.inside false (act (path.getLastD "")) path.dropLast).map fun root => ⟨root, path⟩

end Draft

/-- The input behind the end of a line: blanks, a comment and a line ending or the
end of the document. -/
def lineEnd (cs : List Char) : Option (List Char) :=
  match skipComment (skipSpace cs) with
  | [] => some []
  | cs => newline cs

/-- One line that is not empty: a header or a key with its value. -/
def line (d : Draft) : Step Draft
  | '[' :: '[' :: rest => do
    let (path, rest) ← key rest
    match rest with
    | ']' :: ']' :: rest => return (← d.openAt true path, rest)
    | _ => none
  | '[' :: rest => do
    let (path, rest) ← key rest
    match rest with
    | ']' :: rest => return (← d.openAt false path, rest)
    | _ => none
  | cs => do
    let (path, rest) ← key cs
    match rest with
    | '=' :: rest =>
      let (v, rest) ← value 0 (2 * rest.length + 2) (skipSpace rest)
      return (← d.setKey path v, rest)
    | _ => none

/-- The lines of a document. -/
def lines : (fuel : Nat) → Draft → List Char → Option Draft
  | 0, _, _ => none
  | fuel + 1, d, cs =>
    match skipSpace cs with
    | [] => some d
    | c :: rest =>
      if c = '#' ∨ c = '\n' ∨ c = '\r' then
        match lineEnd (c :: rest) with
        | some rest => lines fuel d rest
        | none => none
      else
        match line d (c :: rest) with
        | some (d, rest) =>
          match lineEnd rest with
          | some rest => lines fuel d rest
          | none => none
        | none => none

/-- The document that a text is, or nothing when it is not TOML.  A byte order
mark at the front is passed over. -/
def read? (s : String) : Option Value :=
  let cs := match s.toList with
    | '\ufeff' :: rest => rest
    | cs => cs
  (lines (cs.length + 1) ⟨.empty, []⟩ cs).map fun d => d.root.finish

end MediaRefresh.Toml
