import MediaRefresh.Queue.Schedule

/-!
# Rehearsal: a worker that follows a script

For each item the script says how long its refresh takes, what the first refresh
enqueues, and how every refresh ends.
-/

set_option autoImplicit false

namespace MediaRefresh.Rehearsal

/-- What the refresh of one item does. -/
structure RefreshScript where
  duration : Nat
  /-- enqueued by the first refresh, with its options -/
  requests : List (ItemId × Priority)
  cancels : Bool
  crashes : Bool
  error : Option RefreshError
  deriving Inhabited

/-- A note of the worker. -/
inductive WorkNote where
  /-- a refresh began -/
  | began (item : Item) (options : RefreshOptions)
  /-- a refresh came to its end -/
  | done (item : Item)

/-- The state of the worker. -/
structure Work where
  items : List Item
  scripts : List (ItemId × RefreshScript)
  /-- the items that have been refreshed -/
  refreshed : List ItemId
  notes : List WorkNote

namespace Work

/-- The script of an item. -/
def script (w : Work) (id : ItemId) : RefreshScript := (w.scripts.lookup id).getD default

/-- The ending of a refresh by its script. -/
def ending (s : RefreshScript) : Ending :=
  if s.crashes then .crashed
  else match s.error with
    | none => .succeeded
    | some .cancelled => .cancelled
    | some _ => .failed

/-- The worker. -/
def worker : Worker Work where
  pass := fun _ w => w
  resolve := fun w id => w.items.find? (·.id == id)
  begin := fun w item options =>
    ({ w with notes := w.notes ++ [.began item options] }, (w.script item.id).duration)
  complete := fun w item options _ =>
    let s := w.script item.id
    let requests :=
      if w.refreshed.contains item.id then []
      else s.requests.map fun r => ⟨r.1, options, r.2⟩
    ({ w with
        refreshed := item.id :: w.refreshed
        notes := if s.crashes then w.notes else w.notes ++ [.done item] },
     ⟨requests, s.cancels, ending s⟩)
  reserve := fun w => (w.scripts.flatMap fun s => s.2.requests).length

end Work

end MediaRefresh.Rehearsal
