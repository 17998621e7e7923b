import MediaRefresh.Error
import MediaRefresh.Event.Basic
import MediaRefresh.Item.Basic

/-!
# Refresh: which items are being refreshed

An item is being refreshed exactly while the tracker has an entry for it.
Entries stand in the order of the identifiers.  Progress is a percentage: it is
clamped between 0 and 100, and a value that is not finite counts as 0.
-/

set_option autoImplicit false

namespace MediaRefresh

open Numeric

/-- The progress of one running refresh. -/
structure ActiveRefresh where
  item : ItemId
  progress : Binary64
  deriving DecidableEq, Repr

namespace ActiveRefresh

/-- The written form of an entry. -/
def form (a : ActiveRefresh) : Form :=
  .record [Form.always "item_id" (.leaf a.item.toValue),
    Form.always "progress" (.leaf (.real a.progress))]

/-- Reads an entry. -/
def decode (d : Dialect) : Decoder ActiveRefresh := fun v => do
  let fs ← Fields.of? d ["item_id", "progress"] v
  return { item := ← fs.required "item_id" ItemId.decode
           progress := ← fs.required "progress" Decode.double }

end ActiveRefresh

/-- No progress. -/
def noProgress : Binary64 := .zero

/-- All of it. -/
def fullProgress : Binary64 := .ofInt 100

/-- A reported value as a percentage. -/
def percentage (progress : Binary64) : Binary64 :=
  if progress.isFinite then progress.clamp noProgress fullProgress else noProgress

/-- The running refreshes. -/
structure Tracker where
  active : List ActiveRefresh
  deriving DecidableEq, Repr, Inhabited

namespace Tracker

/-- No refresh is running. -/
def empty : Tracker := ⟨[]⟩

/-- Entries with the one for `item` set, in the order of the identifiers. -/
def place (item : ItemId) (progress : Binary64) : List ActiveRefresh → List ActiveRefresh
  | [] => [⟨item, progress⟩]
  | a :: rest =>
    if a.item = item then ⟨item, progress⟩ :: rest
    else if item.before a.item then ⟨item, progress⟩ :: a :: rest
    else a :: place item progress rest

/-- The progress of an item, if it is being refreshed. -/
def progress? (t : Tracker) (item : ItemId) : Option Binary64 :=
  (t.active.find? (·.item = item)).map ActiveRefresh.progress

/-- Whether an item is being refreshed. -/
def isRefreshing (t : Tracker) (item : ItemId) : Bool := (t.progress? item).isSome

/-- Marks an item as being refreshed, without progress. -/
def start (t : Tracker) (item : Item) : Tracker × RefreshEvent :=
  (⟨place item.id noProgress t.active⟩, .started item.id item.name)

/-- Records the progress of a running refresh. -/
def report (t : Tracker) (item : Item) (progress : Binary64) :
    Except RefreshError (Tracker × RefreshEvent) :=
  if t.isRefreshing item.id then
    .ok (⟨place item.id (percentage progress) t.active⟩,
      .progressed item.id (percentage progress))
  else .error (.notRunning item.id item.name)

/-- Forgets the refresh of an item, whether or not it was running. -/
def complete (t : Tracker) (item : Item) : Tracker × RefreshEvent :=
  (⟨t.active.filter (·.item ≠ item.id)⟩, .completed item.id)

@[simp] theorem progress?_empty (id : ItemId) : empty.progress? id = none := rfl

end Tracker

end MediaRefresh
