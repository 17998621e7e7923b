import MediaRefresh.Refresh.World

/-!
# Rehearsal: a host and providers that follow a script

A `Stage` is an item store in memory together with what is to go wrong in it.
Providers answer the same each time.  There is no network, so every request to a
web server fails.
-/

set_option autoImplicit false

namespace MediaRefresh.Rehearsal

open Numeric

/-- The validation of one folder. -/
structure ValidationScript where
  reports : List Binary64
  failure : Option Failure
  cancels : Bool

/-- The validation of a folder without a script. -/
def ValidationScript.standard : ValidationScript := ⟨[.ofInt 50, .ofInt 100], none, false⟩

/-- What happens on a stage. -/
structure Stage where
  items : List Item
  library : LibraryOptions
  /-- the physical folders of collection folders -/
  folders : List (ItemId × List ItemId)
  /-- the artists of albums -/
  artists : List (ItemId × ItemId)
  validations : List (ItemId × ValidationScript)
  /-- why items cannot be persisted -/
  updateFailures : List (ItemId × Failure)
  /-- the width of stored images -/
  width : Option Nat
  /-- the height of stored images -/
  height : Option Nat
  /-- why images of a type cannot be stored -/
  storeFailures : List (ImageType × Failure)
  /-- why an address cannot be reached -/
  unreachable : String → Failure

namespace Stage

/-- The item of an identifier. -/
def item? (s : Stage) (id : ItemId) : Option Item := s.items.find? (·.id == id)

/-- Items with one put in the place of that with its identifier, or at the end. -/
def putItem (item : Item) : List Item → List Item
  | [] => [item]
  | i :: rest => if i.id = item.id then item :: rest else i :: putItem item rest

/-- The stage with an item put or replaced. -/
def put (s : Stage) (item : Item) : Stage := { s with items := putItem item s.items }

/-- The stage without an item. -/
def remove (s : Stage) (id : ItemId) : Stage :=
  { s with items := s.items.filter (·.id ≠ id) }

/-- Whether a query asks for an item. -/
def matches? (s : Stage) (q : ItemQuery) (item : Item) : Bool :=
  (q.kinds.isEmpty || q.kinds.contains item.kind) &&
    (q.artists.isEmpty || (s.artists.lookup item.id).any q.artists.contains)

/-- The moment at which everything on a stage happens. -/
def present : Calendar.Instant := ⟨⟨9999, 12, 31, by decide⟩, 23, 59, 59, 0⟩

/-- The host that a stage is. -/
def host : Host Stage where
  item? := item?
  libraryOptions := fun s _ => s.library
  itemsMatching := fun s q => s.items.filter (s.matches? q)
  physicalFolders := fun s folder =>
    ((s.folders.lookup folder.id).getD []).filterMap s.item?
  validateChildren := fun folder _ _ w =>
    let script := (w.state.validations.lookup folder.id).getD .standard
    { reports := script.reports
      outcome := match script.failure with | some f => .failed f | none => .done
      state := w.state
      fires := script.cancels }
  updateItem := fun item _ w =>
    match w.state.updateFailures.lookup item.id with
    | some f => ⟨.error f, w.state, false⟩
    | none => ⟨.ok (), w.state.put item, false⟩
  saveImage := fun item t _ _ w =>
    match w.state.storeFailures.lookup t with
    | some f => ⟨.error f, w.state, false⟩
    | none =>
      ⟨.ok ⟨"/images/" ++ item.id.text ++ "/" ++ t.name, t, w.state.width, w.state.height⟩,
        w.state, false⟩
  httpGet := fun url w => ⟨.error (w.state.unreachable url), w.state, false⟩
  now := fun _ => present
  pass := fun _ s => s
  pass_zero := fun _ => rfl
  pass_add := fun _ _ _ => rfl

end Stage

/-- An answer that is always the same, and whether the call is cancelled by it. -/
def answer {α : Type} (outcome : Except Failure α) (cancels : Bool) : Reaction Stage α :=
  fun w => ⟨outcome, w.state, cancels⟩

/-- A question about an item and an update. -/
inductive Condition where
  /-- the same answer for all -/
  | constant (b : Bool)
  /-- no answer -/
  | fails (f : Failure)
  /-- whether the item is of one of these kinds -/
  | kinds (ks : List ItemKind)
  /-- whether the item is at this path -/
  | path (p : String)
  /-- whether the item has this name -/
  | name (n : String)
  /-- whether the item has a parent, or has none -/
  | hasParent (b : Bool)
  /-- whether the update consists of these changes -/
  | update (cs : List Change)

namespace Condition

/-- The answer for an item and an update. -/
def ask (c : Condition) (item : Item) (update : Update) : Except Failure Bool :=
  match c with
  | .constant b => .ok b
  | .fails f => .error f
  | .kinds ks => .ok (ks.contains item.kind)
  | .path p => .ok (item.path == some p)
  | .name n => .ok (item.name == n)
  | .hasParent b => .ok (item.parentId.isSome == b)
  | .update cs => .ok (update.toList == cs)

end Condition

/-- A service with an outcome for each item. -/
def service (name : String) (order : Int) (primary : List ItemKind)
    (can : Option (List ItemKind)) (update : Update)
    (outcomes : List (ItemId × ServiceOutcome × Bool)) : Service Stage where
  order := order
  dedicatedTo := primary.contains
  canRefresh := fun item => can.all (·.contains item.kind)
  work := .own name fun item _ w =>
    match outcomes.lookup item.id with
    | some (outcome, cancels) => ⟨outcome, w.state, cancels⟩
    | none => ⟨.done update, w.state, false⟩

end MediaRefresh.Rehearsal
