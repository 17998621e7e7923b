import MediaRefresh.Image.Listing
import MediaRefresh.Provider.Plugins
import MediaRefresh.Queue.Schedule
import MediaRefresh.Refresh.Tree
import MediaRefresh.Search.Links
import MediaRefresh.Search.Remote

/-!
# Sessions: a manager at work

A session is a manager with its world and its queue.  A host calls it directly,
each call with a cancellation of its own, or queues refreshes, which a drain task
runs in virtual time with the cancellation of the queue.
-/

set_option autoImplicit false

namespace MediaRefresh

open Numeric

/-- The ending of a queued refresh by its result. -/
def Ending.ofResult {σ α : Type} : EStateM.Result Interrupt (World σ) α → Ending
  | .ok _ _ => .succeeded
  | .error (.failed .cancelled) _ => .cancelled
  | .error (.failed _) _ => .failed
  | .error .crashed _ => .crashed

namespace Manager

variable {σ : Type}

/-- The manager as the worker of its queue.  Its refreshes take no virtual time and
enqueue nothing. -/
def worker (m : Manager σ) : Worker (World σ) where
  pass := fun milliseconds w => w.later m.host milliseconds
  resolve := fun w id => m.host.item? w.state id
  begin := fun w _ _ => (w, 0)
  complete := fun w item options cancelled =>
    let result := m.refreshQueued item options { w with cancelled := cancelled }
    let after := World.after result
    (after, ⟨[], after.cancelled, Ending.ofResult result⟩)
  reserve := fun _ => 0

end Manager

/-- A manager at work. -/
structure Session (σ : Type) where
  manager : Manager σ
  shift : Shift (World σ)

namespace Session

variable {σ : Type}

/-- A session in which nothing has happened. -/
def fresh (m : Manager σ) (state : σ) : Session σ := ⟨m, .idle, .fresh state, 0⟩

/-- The world of the session. -/
def world (s : Session σ) : World σ := s.shift.work

/-- The session with another world. -/
def withWorld (s : Session σ) (w : World σ) : Session σ :=
  { s with shift := { s.shift with work := w } }

/-- The session with another state of the outside. -/
def modifyState (s : Session σ) (f : σ → σ) : Session σ :=
  s.withWorld { s.world with state := f s.world.state }

/-- The session with other providers. -/
def register (s : Session σ) (providers : ProviderSet σ) : Session σ :=
  { s with manager := { s.manager with providers := providers } }

/-- The pause before each queued refresh. -/
def throttle (s : Session σ) : Nat := s.manager.config.throttle

/-- The queue of the session. -/
def queue (s : Session σ) : RefreshQueue := s.shift.drainage.queue

/-- A direct call, which may have been cancelled before it starts. -/
def call {α : Type} (s : Session σ) (cancelled : Bool) (x : RefreshM σ α) :
    Session σ × Except Interrupt α :=
  match x { s.world with cancelled := cancelled } with
  | .ok a w => (s.withWorld w, .ok a)
  | .error e w => (s.withWorld w, .error e)

/-- Announces that a refresh is queued. -/
def announceQueued (s : Session σ) (r : RefreshRequest) : Session σ :=
  (s.call false (RefreshM.announce (.queued r.item r.priority))).1

/-- Hands a request to the queue, from inside a runtime or not. -/
def enqueue (s : Session σ) (r : RefreshRequest) (inRuntime : Bool) : Session σ :=
  { s with shift := s.shift.act s.throttle (.enqueue r inRuntime) }

/-- Announces that a refresh is queued, and queues it while nothing else happens.  The two are
steps of their own: other calls, the drain task and a shutdown may come between them. -/
def queueRefresh (s : Session σ) (r : RefreshRequest) : Session σ :=
  (s.announceQueued r).enqueue r true

/-- Lets time pass up to a moment. -/
def advanceTo (s : Session σ) (moment : Nat) : Session σ :=
  { s with shift := s.shift.advance s.throttle s.manager.worker moment }

/-- Lets so many milliseconds pass. -/
def advance (s : Session σ) (milliseconds : Nat) : Session σ :=
  s.advanceTo (s.shift.drainage.clock + milliseconds)

/-- Lets time pass until the queue has nothing left to do. -/
def drain (s : Session σ) : Session σ := s.advanceTo (s.shift.horizon s.throttle)

/-- Stops the queue. -/
def shutdown (s : Session σ) : Session σ :=
  { s with shift := s.shift.act s.throttle .shutdown }

/-- The progress of a running refresh. -/
def progress? (s : Session σ) (id : ItemId) : Option Binary64 := s.world.tracker.progress? id

/-- The session in a line. -/
def describe (s : Session σ) : String :=
  "ProviderManager \x7b providers: " ++ s.manager.providers.describe ++ ", queue_state: " ++
    s.queue.stateName ++ ", .. \x7d"

/-- The session with an empty journal. -/
def clearJournal (s : Session σ) : Session σ := s.withWorld { s.world with journal := [] }

end Session

end MediaRefresh
