import MediaRefresh.Error
import MediaRefresh.Item.Basic
import MediaRefresh.Queue.Basic

/-!
# Queue: the drain task, step by step

`Drainage` is the queue together with the drain tasks that have been started on
it, a clock and a log.  `Drainage.perform` is one step of one of its parties: a
host enqueues, cancels or shuts down, time passes, or a task makes its next move.
A step that is not possible is `none`.  Every run of the queue is a sequence of
such steps.

A task that has something to do at once lets no time pass; a waiting task lets
time pass up to its wake-up, unless the work has been cancelled.  On a busy machine
time passes all the same (`Act.stall`): a task may be late with any of its moves.
-/

set_option autoImplicit false

namespace MediaRefresh

/-- How a refresh that was handed to the worker ended. -/
inductive Ending where
  | succeeded
  /-- with an error other than cancellation -/
  | failed
  /-- with the error that it was cancelled -/
  | cancelled
  /-- by crashing -/
  | crashed
  deriving DecidableEq, Repr, Inhabited

/-- Where a drain task stands. -/
inductive DrainTask where
  /-- before the question whether the work has been cancelled -/
  | checking
  /-- before it takes a request -/
  | taking
  /-- before it looks up the item of its request -/
  | holding (t : Ticket)
  /-- waiting until a moment before it refreshes an item -/
  | waiting (t : Ticket) (item : Item) (wakeAt : Nat)
  /-- refreshing an item -/
  | refreshing (t : Ticket) (item : Item)
  /-- out of its loop, with the queue still marked as draining -/
  | leaving
  /-- at its end, with the queue marked as idle -/
  | ended
  deriving DecidableEq, Repr

/-- Whether a task has not ended. -/
def DrainTask.live (t : DrainTask) : Bool := t != .ended

/-- What a log tells about a request. -/
inductive LogEntry where
  /-- it was accepted -/
  | accepted (t : Ticket)
  /-- it was taken from the queue by a task -/
  | taken (task : Nat) (t : Ticket)
  /-- its item no longer exists -/
  | skipped (t : Ticket)
  /-- its refresh started with this item -/
  | started (t : Ticket) (item : Item)
  /-- its refresh ended -/
  | finished (t : Ticket) (ending : Ending)
  /-- it was given up while waiting -/
  | dropped (t : Ticket)
  deriving DecidableEq, Repr

/-- A queue, its tasks, the time and the log, newest entry first, with times. -/
structure Drainage where
  queue : RefreshQueue
  tasks : List DrainTask
  clock : Nat
  log : List (Nat × LogEntry)
  deriving DecidableEq, Repr

/-- A move of a drain task. -/
inductive Move where
  /-- ask whether the work has been cancelled -/
  | check
  /-- take a request, or end when there is none -/
  | take
  /-- look up the item of the request, with this answer -/
  | resolve (found : Option Item)
  /-- start the refresh after the wait -/
  | wake
  /-- give the request up after a cancellation -/
  | abandon
  /-- end the refresh -/
  | finish (ending : Ending)
  /-- mark the queue as idle and end -/
  | leave
  deriving DecidableEq, Repr

/-- A step of a party. -/
inductive Act where
  /-- a host enqueues a request, from inside a runtime or not -/
  | enqueue (r : RefreshRequest) (inRuntime : Bool)
  /-- the work is cancelled -/
  | cancel
  /-- the queue is shut down -/
  | shutdown
  /-- time passes up to a moment, as far as the tasks let it -/
  | elapse (moment : Nat)
  /-- time passes up to a moment while the tasks are kept from moving -/
  | stall (moment : Nat)
  /-- a task makes a move -/
  | move (task : Nat) (m : Move)
  deriving DecidableEq, Repr

namespace Drainage

/-- An idle queue at the beginning of time. -/
def idle : Drainage := ⟨.idle, [], 0, []⟩

instance : Inhabited Drainage := ⟨idle⟩

/-- Adds a line to the log. -/
def note (d : Drainage) (e : LogEntry) : Drainage := { d with log := (d.clock, e) :: d.log }

/-- Puts a queue in the place of the present one. -/
def withQueue (d : Drainage) (q : RefreshQueue) : Drainage := { d with queue := q }

/-- Puts a task in a new position. -/
def setTask (d : Drainage) (i : Nat) (t : DrainTask) : Drainage :=
  { d with tasks := d.tasks.set i t }

/-- Sets the clock. -/
def atMoment (d : Drainage) (moment : Nat) : Drainage := { d with clock := moment }

/-- Accepts a request. -/
def accept (d : Drainage) (r : RefreshRequest) : Drainage :=
  (d.note (.accepted ⟨r, d.queue.accepted⟩)).withQueue (d.queue.push r)

/-- Starts a drain task and marks the queue as draining. -/
def startTask (d : Drainage) : Drainage :=
  { d with queue := { d.queue with draining := true }, tasks := d.tasks ++ [.checking] }

/-- Ends a drain task and marks the queue as idle. -/
def endTask (d : Drainage) (i : Nat) : Drainage :=
  (d.withQueue { d.queue with draining := false }).setTask i .ended

/-- Enqueues a request and, when the queue is idle and there is a runtime, starts a
drain task.  A closed queue drops the request. -/
def enqueue (d : Drainage) (r : RefreshRequest) (inRuntime : Bool) : Drainage :=
  if d.queue.closed then d
  else if d.queue.draining || !inRuntime then d.accept r
  else (d.accept r).startTask

/-- Whether a task lets time pass up to a moment. -/
def allows (d : Drainage) (moment : Nat) : DrainTask → Bool
  | .waiting _ _ wakeAt => !d.queue.cancelled && moment ≤ wakeAt
  | .refreshing .. => true
  | .ended => true
  | _ => false

/-- One move of the task `i`, which stands at `t`; `throttle` is the wait before
each refresh. -/
def moveTask (throttle : Nat) (d : Drainage) (i : Nat) : DrainTask → Move → Option Drainage
  | .checking, .check => some (d.setTask i (if d.queue.cancelled then .leaving else .taking))
  | .taking, .take =>
    match d.queue.pop? with
    | some (t, q) => some (((d.note (.taken i t)).withQueue q).setTask i (.holding t))
    | none => some (d.endTask i)
  | .holding t, .resolve (some item) =>
    some (d.setTask i (.waiting t item (d.clock + throttle)))
  | .holding t, .resolve none => some ((d.note (.skipped t)).setTask i .checking)
  | .waiting t item wakeAt, .wake =>
    if wakeAt ≤ d.clock then some ((d.note (.started t item)).setTask i (.refreshing t item))
    else none
  | .waiting t _ _, .abandon =>
    if d.queue.cancelled then some ((d.note (.dropped t)).setTask i .leaving) else none
  | .refreshing t _, .finish ending =>
    some ((d.note (.finished t ending)).setTask i
      (if ending = .cancelled then .leaving else .checking))
  | .leaving, .leave => some (d.endTask i)
  | _, _ => none

/-- One step of a party. -/
def perform (throttle : Nat) (d : Drainage) : Act → Option Drainage
  | .enqueue r inRuntime => some (d.enqueue r inRuntime)
  | .cancel => some (d.withQueue { d.queue with cancelled := true })
  | .shutdown => some (d.withQueue d.queue.shutdown)
  | .elapse moment =>
    if d.clock ≤ moment && d.tasks.all (d.allows moment) then some (d.atMoment moment) else none
  | .stall moment => if d.clock ≤ moment then some (d.atMoment moment) else none
  | .move i m => (d.tasks[i]?).bind fun t => d.moveTask throttle i t m

/-- The state after a sequence of steps, if all of them are possible. -/
def performAll (throttle : Nat) (d : Drainage) : List Act → Option Drainage
  | [] => some d
  | a :: rest => (d.perform throttle a).bind fun d => d.performAll throttle rest

/-- The first task that has not ended. -/
def current? (d : Drainage) : Option (Nat × DrainTask) :=
  (d.tasks.findIdx? DrainTask.live).bind fun i => (d.tasks[i]?).map fun t => (i, t)

end Drainage

end MediaRefresh
