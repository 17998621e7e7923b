import MediaRefresh.Queue.Drain

/-!
# Queue: letting time pass

`advance` runs the drain task up to a moment of virtual time: every move that is
due happens at its moment, and each is a step of `Drainage.perform`.  What a
refresh does is up to a worker: it looks items up, says how long a refresh takes,
and at its end says what else it did.
-/

set_option autoImplicit false

namespace MediaRefresh

/-- What a refresh did by its end. -/
structure Completion where
  /-- requests that it enqueued -/
  requests : List RefreshRequest
  /-- whether it cancelled the work -/
  cancels : Bool
  ending : Ending

/-- What refreshes items, over a state of its own. -/
structure Worker (ω : Type) where
  /-- lets so many milliseconds pass -/
  pass : Nat → ω → ω
  /-- the live item of an identifier -/
  resolve : ω → ItemId → Option Item
  /-- starts a refresh and says how long it takes -/
  begin : ω → Item → RefreshOptions → ω × Nat
  /-- ends a refresh, knowing whether the work has been cancelled -/
  complete : ω → Item → RefreshOptions → Bool → ω × Completion
  /-- how many requests all later refreshes together may enqueue -/
  reserve : ω → Nat

/-- A queue at work. -/
structure Shift (ω : Type) where
  drainage : Drainage
  work : ω
  /-- when the running refresh ends -/
  busyUntil : Nat

namespace Shift

variable {ω : Type}

/-- A step of a party; one that is not possible leaves everything as it is. -/
def act (throttle : Nat) (s : Shift ω) (a : Act) : Shift ω :=
  { s with drainage := (s.drainage.perform throttle a).getD s.drainage }

/-- The steps of a list, one after the other. -/
def acts (throttle : Nat) (s : Shift ω) (as : List Act) : Shift ω :=
  as.foldl (act throttle) s

/-- A step by which time passes; as far as it does, it passes for the work as well. -/
def lapse (throttle : Nat) (worker : Worker ω) (s : Shift ω) (a : Act) : Shift ω :=
  let next := s.act throttle a
  { next with work := worker.pass (next.drainage.clock - s.drainage.clock) s.work }

/-- The next thing that happens up to `moment`, or nothing when only time is left
to pass. -/
def next? (throttle : Nat) (worker : Worker ω) (moment : Nat) (s : Shift ω) : Option (Shift ω) :=
  match s.drainage.current? with
  | none => none
  | some (i, task) =>
    match task with
    | .checking => some (s.act throttle (.move i .check))
    | .taking => some (s.act throttle (.move i .take))
    | .holding t =>
      some (s.act throttle (.move i (.resolve (worker.resolve s.work t.request.item))))
    | .waiting t item wakeAt =>
      if s.drainage.queue.cancelled then some (s.act throttle (.move i .abandon))
      else if wakeAt ≤ moment then
        let s := (s.lapse throttle worker (.elapse (max s.drainage.clock wakeAt))).act throttle
          (.move i .wake)
        let (work, duration) := worker.begin s.work item t.request.options
        some { s with work := work, busyUntil := s.drainage.clock + duration }
      else none
    | .refreshing t item =>
      if s.busyUntil ≤ moment then
        let s := s.lapse throttle worker (.elapse (max s.drainage.clock s.busyUntil))
        let (work, completion) :=
          worker.complete s.work item t.request.options s.drainage.queue.cancelled
        let s := { s with work := work }.acts throttle
          (completion.requests.map fun r => .enqueue r true)
        let s := if completion.cancels then s.act throttle .cancel else s
        some (s.act throttle (.move i (.finish completion.ending)))
      else none
    | .leaving => some (s.act throttle (.move i .leave))
    | .ended => none

/-- Lets happen what happens up to `moment`, at most `fuel` things. -/
def run (throttle : Nat) (worker : Worker ω) (moment : Nat) : (fuel : Nat) → Shift ω → Shift ω
  | 0, s => s
  | fuel + 1, s =>
    match s.next? throttle worker moment with
    | some s => run throttle worker moment fuel s
    | none => s

/-- A bound of what can happen: a few moves for each request that is or may be
enqueued. -/
def bound (worker : Worker ω) (s : Shift ω) : Nat :=
  8 * (s.drainage.queue.pending.length + worker.reserve s.work) + 16

/-- Lets time pass up to `moment`. -/
def advance (throttle : Nat) (worker : Worker ω) (moment : Nat) (s : Shift ω) : Shift ω :=
  (s.run throttle worker moment (s.bound worker)).lapse throttle worker (.elapse moment)

/-- A moment by which a worker whose refreshes take no time has served every
pending request. -/
def horizon (throttle : Nat) (s : Shift ω) : Nat :=
  s.drainage.clock + (throttle + 1) * (s.drainage.queue.pending.length + 2)

end Shift

end MediaRefresh
