import MediaRefresh.Item.Id
import MediaRefresh.Refresh.Options

/-!
# Queue: pending refreshes

The queue serves the most urgent request first and, among equally urgent ones,
the one that came first.  It is draining while a drain task works on it.  Once
closed it accepts nothing.
-/

set_option autoImplicit false

namespace MediaRefresh

/-- A refresh that has been asked for. -/
structure RefreshRequest where
  item : ItemId
  options : RefreshOptions
  priority : Priority
  deriving DecidableEq, Repr

/-- An accepted request with its place in the sequence of all accepted ones. -/
structure Ticket where
  request : RefreshRequest
  sequence : Nat
  deriving DecidableEq, Repr

namespace Ticket

/-- How urgent `a` is beside `b`.  A smaller rank is more urgent, and of equal ranks
the earlier place. -/
def urgency (a b : Ticket) : Ordering :=
  (compare b.request.priority.rank a.request.priority.rank).then
    (compare b.sequence a.sequence)

/-- Whether `a` is served before `b`: the most urgent one is served first. -/
def precedes (a b : Ticket) : Bool := a.urgency b == .gt

/-- The ticket that is served first, beside those that are left, in their order. -/
def takeFirst : List Ticket → Option (Ticket × List Ticket)
  | [] => none
  | t :: rest =>
    match takeFirst rest with
    | none => some (t, [])
    | some (best, others) =>
      if best.precedes t then some (best, t :: others) else some (t, rest)

end Ticket

/-- The queue of refreshes. -/
structure RefreshQueue where
  /-- the pending requests in the order of acceptance -/
  pending : List Ticket
  /-- the number of accepted requests -/
  accepted : Nat
  /-- whether a drain task is at work -/
  draining : Bool
  /-- whether requests are refused -/
  closed : Bool
  /-- whether the work has been cancelled -/
  cancelled : Bool
  deriving DecidableEq, Repr

namespace RefreshQueue

/-- An idle queue. -/
def idle : RefreshQueue := ⟨[], 0, false, false, false⟩

instance : Inhabited RefreshQueue := ⟨idle⟩

/-- Puts a request behind the pending ones. -/
def push (q : RefreshQueue) (r : RefreshRequest) : RefreshQueue :=
  { q with pending := q.pending ++ [⟨r, q.accepted⟩], accepted := q.accepted + 1 }

/-- Takes the request that is served first. -/
def pop? (q : RefreshQueue) : Option (Ticket × RefreshQueue) :=
  (Ticket.takeFirst q.pending).map fun (t, rest) => (t, { q with pending := rest })

/-- Stops the work and refuses further requests. -/
def shutdown (q : RefreshQueue) : RefreshQueue := { q with closed := true, cancelled := true }

/-- The items of the pending requests, each once, in order. -/
def items (q : RefreshQueue) : List ItemId :=
  ((q.pending.map fun t => t.request.item).mergeSort ItemId.before).eraseDups

/-- The state of the queue in a word. -/
def stateName (q : RefreshQueue) : String := if q.draining then "Draining" else "Idle"

end RefreshQueue

end MediaRefresh
