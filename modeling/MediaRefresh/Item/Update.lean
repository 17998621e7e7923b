import MediaRefresh.Value.Decode

/-!
# Items: what a refresh changed

Four kinds of change, each with a bit of its own, and sets of them.  The
strength of a change is its bit: an edit is stronger than a download, a download
than a new image, that than an import.
-/

set_option autoImplicit false

namespace MediaRefresh

/-- One kind of change. -/
inductive Change where
  /-- metadata was read from local files -/
  | metadataImport
  /-- images were added or replaced -/
  | imageUpdate
  /-- metadata was downloaded from a remote provider -/
  | metadataDownload
  /-- metadata was edited by a person -/
  | metadataEdit
  deriving DecidableEq, Repr, Inhabited

namespace Change

/-- Every change, in the order of the bits. -/
def all : List Change := [metadataImport, imageUpdate, metadataDownload, metadataEdit]

theorem mem_all (c : Change) : c ∈ all := by cases c <;> decide

/-- The name of a change. -/
def name : Change → String
  | metadataImport => "MetadataImport"
  | imageUpdate => "ImageUpdate"
  | metadataDownload => "MetadataDownload"
  | metadataEdit => "MetadataEdit"

/-- The bit of a change. -/
def bit : Change → Nat
  | metadataImport => 1
  | imageUpdate => 2
  | metadataDownload => 4
  | metadataEdit => 8

/-- A change written as its name. -/
def toValue (c : Change) : Value := .text c.name

/-- Reads a change from its name. -/
def decode (d : Dialect) : Decoder Change := Decode.named d all name

end Change

/-- A set of changes; the empty one says that nothing changed. -/
structure Update where
  imported : Bool
  images : Bool
  downloaded : Bool
  edited : Bool
  deriving DecidableEq, Repr, Inhabited

namespace Update

/-- No change. -/
def empty : Update := ⟨false, false, false, false⟩

/-- Whether the set holds a change. -/
def holds (u : Update) : Change → Bool
  | .metadataImport => u.imported
  | .imageUpdate => u.images
  | .metadataDownload => u.downloaded
  | .metadataEdit => u.edited

/-- The union of two sets. -/
def union (u v : Update) : Update :=
  ⟨u.imported || v.imported, u.images || v.images, u.downloaded || v.downloaded,
   u.edited || v.edited⟩

/-- The set of one change. -/
def only (c : Change) : Update :=
  ⟨c == .metadataImport, c == .imageUpdate, c == .metadataDownload, c == .metadataEdit⟩

/-- The set with a change added. -/
def add (u : Update) (c : Change) : Update := u.union (only c)

/-- The set of the changes in a list. -/
def ofList (cs : List Change) : Update := cs.foldl add empty

/-- The changes of the set, in the order of the bits. -/
def toList (u : Update) : List Change := Change.all.filter u.holds

/-- The sum of the bits of the set. -/
def bits (u : Update) : Nat := u.toList.foldr (fun c n => c.bit + n) 0

/-- Whether the set is empty. -/
def isEmpty (u : Update) : Bool := u.toList.isEmpty

/-- Whether the set, read as a number, reaches the bit of `c`. -/
def reaches (u : Update) (c : Change) : Bool := c.bit ≤ u.bits

@[simp] theorem holds_empty (c : Change) : empty.holds c = false := by cases c <;> rfl

@[simp] theorem holds_only (c d : Change) : (only c).holds d = (c == d) := by
  cases c <;> cases d <;> rfl

@[simp] theorem holds_union (u v : Update) (c : Change) :
    (u.union v).holds c = (u.holds c || v.holds c) := by cases c <;> rfl

@[simp] theorem holds_add (u : Update) (c d : Change) :
    (u.add c).holds d = (u.holds d || c == d) := by simp [add]

theorem add_of_holds {u : Update} {c : Change} (h : u.holds c = true) : u.add c = u := by
  obtain ⟨imported, images, downloaded, edited⟩ := u
  cases c <;> simp_all [holds, add, only, union]

/-- A set is as strong as a download when it holds a download or an edit. -/
theorem reaches_metadataDownload (u : Update) : u.reaches .metadataDownload = true ↔
    u.holds .metadataDownload = true ∨ u.holds .metadataEdit = true := by
  rcases u with ⟨_ | _, _ | _, _ | _, _ | _⟩ <;> decide

theorem mem_toList {u : Update} {c : Change} : c ∈ u.toList ↔ u.holds c = true := by
  simp [toList, Change.mem_all]

theorem isEmpty_iff (u : Update) : u.isEmpty = true ↔ u = empty := by
  rcases u with ⟨_ | _, _ | _, _ | _, _ | _⟩ <;> decide

/-- A set written as the list of its changes. -/
def toValue (u : Update) : Value := .list (u.toList.map Change.toValue)

/-- Reads a set from a list of changes in any order. -/
def decode (d : Dialect) : Decoder Update := fun v => (Decode.list (Change.decode d) v).map ofList

end Update

end MediaRefresh
