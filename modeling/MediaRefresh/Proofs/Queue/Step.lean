import MediaRefresh.Proofs.Queue.Ticket
import MediaRefresh.Queue.Drain
import Mathlib.Data.List.Induction

/-!
# Queue: what a step can do

`Drainage.Step` lists everything that one step of a party can do, with what it
asks for; `step_of_perform` says that the list is complete.  Invariants of a run
follow by one case a constructor and `Drainage.run_induction`.  What a run has
logged is read through `Drainage.told`.
-/

set_option autoImplicit false

namespace MediaRefresh

/-! ## What a log tells -/

namespace LogEntry

/-- The ticket of an acceptance. -/
@[simp] def accepted? : LogEntry → Option Ticket
  | accepted t => some t
  | _ => none

/-- The ticket that a task has taken, and the task. -/
@[simp] def taken? : LogEntry → Option (Nat × Ticket)
  | taken i t => some (i, t)
  | _ => none

/-- The ticket whose item no longer existed. -/
@[simp] def skipped? : LogEntry → Option Ticket
  | skipped t => some t
  | _ => none

/-- The ticket whose refresh has started. -/
@[simp] def started? : LogEntry → Option Ticket
  | started t _ => some t
  | _ => none

/-- The ticket whose refresh has ended. -/
@[simp] def finished? : LogEntry → Option Ticket
  | finished t _ => some t
  | _ => none

/-- The ticket that was given up while waiting. -/
@[simp] def dropped? : LogEntry → Option Ticket
  | dropped t => some t
  | _ => none

end LogEntry

namespace Drainage

variable {α : Type}

/-- What the log tells under a reading of its lines, oldest first. -/
def told (d : Drainage) (reading : LogEntry → Option α) : List α :=
  d.log.reverse.filterMap fun e => reading e.2

/-- The accepted requests, in the order of acceptance. -/
abbrev accepted (d : Drainage) : List Ticket := d.told LogEntry.accepted?

/-- What tasks have taken from the queue, in order, each with its task. -/
abbrev taken (d : Drainage) : List (Nat × Ticket) := d.told LogEntry.taken?

/-- The requests whose item no longer existed. -/
abbrev skipped (d : Drainage) : List Ticket := d.told LogEntry.skipped?

/-- The requests that were handed to the worker, once for each time. -/
abbrev started (d : Drainage) : List Ticket := d.told LogEntry.started?

/-- The requests whose refresh has ended. -/
abbrev finished (d : Drainage) : List Ticket := d.told LogEntry.finished?

/-- The requests that were given up during their wait. -/
abbrev dropped (d : Drainage) : List Ticket := d.told LogEntry.dropped?

/-- The requests that have been taken from the queue, in order. -/
def popped (d : Drainage) : List Ticket := d.taken.map Prod.snd

@[simp] theorem told_note (d : Drainage) (e : LogEntry) (reading : LogEntry → Option α) :
    (d.note e).told reading = d.told reading ++ (reading e).toList := by
  cases h : reading e <;> simp [told, note, h]

@[simp] theorem told_withQueue (d : Drainage) (q : RefreshQueue) (reading : LogEntry → Option α) :
    (d.withQueue q).told reading = d.told reading := rfl

@[simp] theorem told_setTask (d : Drainage) (i : Nat) (t : DrainTask)
    (reading : LogEntry → Option α) : (d.setTask i t).told reading = d.told reading := rfl

@[simp] theorem told_atMoment (d : Drainage) (moment : Nat) (reading : LogEntry → Option α) :
    (d.atMoment moment).told reading = d.told reading := rfl

@[simp] theorem told_accept (d : Drainage) (r : RefreshRequest) (reading : LogEntry → Option α) :
    (d.accept r).told reading =
      d.told reading ++ (reading (.accepted ⟨r, d.queue.accepted⟩)).toList := by
  simp [accept]

@[simp] theorem told_startTask (d : Drainage) (reading : LogEntry → Option α) :
    d.startTask.told reading = d.told reading := rfl

@[simp] theorem told_endTask (d : Drainage) (i : Nat) (reading : LogEntry → Option α) :
    (d.endTask i).told reading = d.told reading := rfl

/-! ## Queue and tasks after an operation -/

@[simp] theorem queue_note (d : Drainage) (e : LogEntry) : (d.note e).queue = d.queue := rfl

@[simp] theorem queue_withQueue (d : Drainage) (q : RefreshQueue) : (d.withQueue q).queue = q := rfl

@[simp] theorem queue_setTask (d : Drainage) (i : Nat) (t : DrainTask) :
    (d.setTask i t).queue = d.queue := rfl

@[simp] theorem queue_atMoment (d : Drainage) (moment : Nat) :
    (d.atMoment moment).queue = d.queue := rfl

@[simp] theorem queue_accept (d : Drainage) (r : RefreshRequest) :
    (d.accept r).queue = d.queue.push r := rfl

@[simp] theorem queue_startTask (d : Drainage) :
    d.startTask.queue = { d.queue with draining := true } := rfl

@[simp] theorem queue_endTask (d : Drainage) (i : Nat) :
    (d.endTask i).queue = { d.queue with draining := false } := rfl

@[simp] theorem tasks_note (d : Drainage) (e : LogEntry) : (d.note e).tasks = d.tasks := rfl

@[simp] theorem tasks_withQueue (d : Drainage) (q : RefreshQueue) :
    (d.withQueue q).tasks = d.tasks := rfl

@[simp] theorem tasks_setTask (d : Drainage) (i : Nat) (t : DrainTask) :
    (d.setTask i t).tasks = d.tasks.set i t := rfl

@[simp] theorem tasks_accept (d : Drainage) (r : RefreshRequest) :
    (d.accept r).tasks = d.tasks := rfl

@[simp] theorem tasks_startTask (d : Drainage) :
    d.startTask.tasks = d.tasks ++ [.checking] := rfl

@[simp] theorem tasks_endTask (d : Drainage) (i : Nat) :
    (d.endTask i).tasks = d.tasks.set i .ended := rfl

/-! ## Log and clock after an operation -/

@[simp] theorem log_note (d : Drainage) (e : LogEntry) : (d.note e).log = (d.clock, e) :: d.log :=
  rfl

@[simp] theorem log_withQueue (d : Drainage) (q : RefreshQueue) : (d.withQueue q).log = d.log := rfl

@[simp] theorem log_setTask (d : Drainage) (i : Nat) (t : DrainTask) :
    (d.setTask i t).log = d.log := rfl

@[simp] theorem log_atMoment (d : Drainage) (moment : Nat) : (d.atMoment moment).log = d.log := rfl

@[simp] theorem log_accept (d : Drainage) (r : RefreshRequest) :
    (d.accept r).log = (d.clock, .accepted ⟨r, d.queue.accepted⟩) :: d.log := rfl

@[simp] theorem log_startTask (d : Drainage) : d.startTask.log = d.log := rfl

@[simp] theorem log_endTask (d : Drainage) (i : Nat) : (d.endTask i).log = d.log := rfl

@[simp] theorem clock_note (d : Drainage) (e : LogEntry) : (d.note e).clock = d.clock := rfl

@[simp] theorem clock_withQueue (d : Drainage) (q : RefreshQueue) :
    (d.withQueue q).clock = d.clock := rfl

@[simp] theorem clock_setTask (d : Drainage) (i : Nat) (t : DrainTask) :
    (d.setTask i t).clock = d.clock := rfl

@[simp] theorem clock_atMoment (d : Drainage) (moment : Nat) : (d.atMoment moment).clock = moment :=
  rfl

/-- What is told by the log is told by one of its lines. -/
theorem mem_told {d : Drainage} {reading : LogEntry → Option α} {a : α} :
    a ∈ d.told reading ↔ ∃ line ∈ d.log, reading line.2 = some a := by
  simp [told]

section Lines

variable {d : Drainage} {t : Ticket}

theorem mem_accepted : t ∈ d.accepted ↔ ∃ moment, (moment, .accepted t) ∈ d.log := by
  refine mem_told.trans ⟨fun ⟨⟨moment, line⟩, hline, hreading⟩ => ?_, fun ⟨_, hline⟩ =>
    ⟨_, hline, rfl⟩⟩
  cases line with
  | accepted u => exact ⟨moment, Option.some.inj hreading ▸ hline⟩
  | _ => cases hreading

theorem mem_started : t ∈ d.started ↔ ∃ moment item, (moment, .started t item) ∈ d.log := by
  refine mem_told.trans ⟨fun ⟨⟨moment, line⟩, hline, hreading⟩ => ?_, fun ⟨_, _, hline⟩ =>
    ⟨_, hline, rfl⟩⟩
  cases line with
  | started u item => exact ⟨moment, item, Option.some.inj hreading ▸ hline⟩
  | _ => cases hreading

theorem mem_finished : t ∈ d.finished ↔ ∃ moment ending, (moment, .finished t ending) ∈ d.log := by
  refine mem_told.trans ⟨fun ⟨⟨moment, line⟩, hline, hreading⟩ => ?_, fun ⟨_, _, hline⟩ =>
    ⟨_, hline, rfl⟩⟩
  cases line with
  | finished u ending => exact ⟨moment, ending, Option.some.inj hreading ▸ hline⟩
  | _ => cases hreading

end Lines

end Drainage

@[simp] theorem RefreshQueue.closed_push (q : RefreshQueue) (r : RefreshRequest) :
    (q.push r).closed = q.closed := rfl

@[simp] theorem RefreshQueue.closed_shutdown (q : RefreshQueue) : q.shutdown.closed = true := rfl

/-! ## The steps -/

/-- What one step can do, with everything that it asks for. -/
inductive Drainage.Step (throttle : Nat) (d : Drainage) : Act → Drainage → Prop where
  /-- a closed queue drops a request -/
  | refuse (r : RefreshRequest) (inRuntime : Bool) (closed : d.queue.closed = true) :
      Step throttle d (.enqueue r inRuntime) d
  /-- a request is accepted for the task at work, or for one that starts later -/
  | accept (r : RefreshRequest) (inRuntime : Bool) (opened : d.queue.closed = false)
      (kept : d.queue.draining = true ∨ inRuntime = false) :
      Step throttle d (.enqueue r inRuntime) (d.accept r)
  /-- a request is accepted and a task starts -/
  | start (r : RefreshRequest) (opened : d.queue.closed = false)
      (idle : d.queue.draining = false) :
      Step throttle d (.enqueue r true) (d.accept r).startTask
  | cancel : Step throttle d .cancel (d.withQueue { d.queue with cancelled := true })
  | shutdown : Step throttle d .shutdown (d.withQueue d.queue.shutdown)
  /-- time passes as far as every task lets it -/
  | elapse (moment : Nat) (forward : d.clock ≤ moment)
      (allowed : ∀ t ∈ d.tasks, d.allows moment t = true) :
      Step throttle d (.elapse moment) (d.atMoment moment)
  /-- time passes whatever the tasks have to do -/
  | stall (moment : Nat) (forward : d.clock ≤ moment) :
      Step throttle d (.stall moment) (d.atMoment moment)
  /-- a task finds that the work has been cancelled -/
  | halt (i : Nat) (at_ : d.tasks[i]? = some .checking) (cancelled : d.queue.cancelled = true) :
      Step throttle d (.move i .check) (d.setTask i .leaving)
  /-- a task finds that it may go on -/
  | proceed (i : Nat) (at_ : d.tasks[i]? = some .checking)
      (active : d.queue.cancelled = false) :
      Step throttle d (.move i .check) (d.setTask i .taking)
  /-- a task takes the request that is served first -/
  | pop (i : Nat) (at_ : d.tasks[i]? = some .taking) (t : Ticket) (rest : List Ticket)
      (first : Ticket.takeFirst d.queue.pending = some (t, rest)) :
      Step throttle d (.move i .take)
        (((d.note (.taken i t)).withQueue { d.queue with pending := rest }).setTask i
          (.holding t))
  /-- a task finds the queue empty -/
  | exhaust (i : Nat) (at_ : d.tasks[i]? = some .taking) (empty : d.queue.pending = []) :
      Step throttle d (.move i .take) (d.endTask i)
  | resolve (i : Nat) (t : Ticket) (item : Item) (at_ : d.tasks[i]? = some (.holding t)) :
      Step throttle d (.move i (.resolve (some item)))
        (d.setTask i (.waiting t item (d.clock + throttle)))
  | skip (i : Nat) (t : Ticket) (at_ : d.tasks[i]? = some (.holding t)) :
      Step throttle d (.move i (.resolve none)) ((d.note (.skipped t)).setTask i .checking)
  | wake (i : Nat) (t : Ticket) (item : Item) (wakeAt : Nat)
      (at_ : d.tasks[i]? = some (.waiting t item wakeAt)) (due : wakeAt ≤ d.clock) :
      Step throttle d (.move i .wake)
        ((d.note (.started t item)).setTask i (.refreshing t item))
  | abandon (i : Nat) (t : Ticket) (item : Item) (wakeAt : Nat)
      (at_ : d.tasks[i]? = some (.waiting t item wakeAt)) (cancelled : d.queue.cancelled = true) :
      Step throttle d (.move i .abandon) ((d.note (.dropped t)).setTask i .leaving)
  /-- a refresh ends in a way after which the task goes on -/
  | finish (i : Nat) (t : Ticket) (item : Item) (ending : Ending)
      (at_ : d.tasks[i]? = some (.refreshing t item)) (goesOn : ending ≠ .cancelled) :
      Step throttle d (.move i (.finish ending))
        ((d.note (.finished t ending)).setTask i .checking)
  /-- a refresh ends because it was cancelled, which ends the task -/
  | quit (i : Nat) (t : Ticket) (item : Item)
      (at_ : d.tasks[i]? = some (.refreshing t item)) :
      Step throttle d (.move i (.finish .cancelled))
        ((d.note (.finished t .cancelled)).setTask i .leaving)
  /-- a task marks the queue as idle on its way out -/
  | leave (i : Nat) (at_ : d.tasks[i]? = some .leaving) :
      Step throttle d (.move i .leave) (d.endTask i)

namespace Drainage

variable {α : Type} {throttle : Nat} {d e f : Drainage} {a : Act}

/-- Every move of a task is one of the steps. -/
theorem step_of_moveTask {i : Nat} {t : DrainTask} {m : Move} (ht : d.tasks[i]? = some t)
    (h : d.moveTask throttle i t m = some e) : Step throttle d (.move i m) e := by
  unfold moveTask at h
  split at h
  · by_cases hcancelled : d.queue.cancelled = true
    · rw [if_pos hcancelled] at h
      obtain rfl := Option.some.inj h
      exact .halt i ht hcancelled
    · rw [if_neg hcancelled] at h
      obtain rfl := Option.some.inj h
      exact .proceed i ht (by simpa using hcancelled)
  · cases hfirst : Ticket.takeFirst d.queue.pending with
    | none =>
      simp only [RefreshQueue.pop?, hfirst, Option.map_none, Option.some.injEq] at h
      subst h
      exact .exhaust i ht (Ticket.takeFirst_eq_none_iff.mp hfirst)
    | some found =>
      obtain ⟨taken, rest⟩ := found
      simp only [RefreshQueue.pop?, hfirst, Option.map_some, Option.some.injEq] at h
      subst h
      exact .pop i ht taken rest hfirst
  · obtain rfl := Option.some.inj h
    exact .resolve i _ _ ht
  · obtain rfl := Option.some.inj h
    exact .skip i _ ht
  · split at h
    · obtain rfl := Option.some.inj h
      exact .wake i _ _ _ ht ‹_›
    · cases h
  · split at h
    · obtain rfl := Option.some.inj h
      exact .abandon i _ _ _ ht ‹_›
    · cases h
  · rename_i t item ending
    obtain rfl := Option.some.inj h
    by_cases hending : ending = .cancelled
    · subst hending
      exact .quit i t item ht
    · rw [if_neg hending]
      exact .finish i t item ending ht hending
  · obtain rfl := Option.some.inj h
    exact .leave i ht
  · cases h

/-- Every step of a party is one of the steps. -/
theorem step_of_perform (h : d.perform throttle a = some e) : Step throttle d a e := by
  cases a with
  | enqueue r inRuntime =>
    simp only [perform, enqueue, Option.some.injEq] at h
    subst h
    split
    · exact .refuse r inRuntime ‹_›
    · rename_i hopened
      have hopened : d.queue.closed = false := by simpa using hopened
      split
      · rename_i hkept
        exact .accept r inRuntime hopened (by simpa using hkept)
      · rename_i hstart
        obtain ⟨hidle, rfl⟩ : d.queue.draining = false ∧ inRuntime = true := by
          simpa using hstart
        exact .start r hopened hidle
  | cancel =>
    obtain rfl := Option.some.inj h
    exact .cancel
  | shutdown =>
    obtain rfl := Option.some.inj h
    exact .shutdown
  | elapse moment =>
    simp only [perform, Option.ite_none_right_eq_some, Option.some.injEq, Bool.and_eq_true,
      decide_eq_true_eq, List.all_eq_true] at h
    obtain ⟨⟨hforward, hallowed⟩, rfl⟩ := h
    exact .elapse moment hforward hallowed
  | stall moment =>
    simp only [perform, Option.ite_none_right_eq_some, Option.some.injEq] at h
    obtain ⟨hforward, rfl⟩ := h
    exact .stall moment hforward
  | move i m =>
    simp only [perform, Option.bind_eq_some_iff] at h
    obtain ⟨t, ht, hmove⟩ := h
    exact step_of_moveTask ht hmove

theorem perform_move_of_eq {i : Nat} {t : DrainTask} (h : d.tasks[i]? = some t) (m : Move) :
    d.perform throttle (.move i m) = d.moveTask throttle i t m := by
  rw [perform, h, Option.bind_some]

/-! ## Moves by the position of the task -/

section Positions

variable {i : Nat} {m : Move} {t : Ticket}

theorem getElem?_of_current {u : DrainTask} (h : d.current? = some (i, u)) :
    d.tasks[i]? = some u := by
  obtain ⟨j, -, hj⟩ := Option.bind_eq_some_iff.mp h
  obtain ⟨v, hv, hpair⟩ := Option.map_eq_some_iff.mp hj
  obtain ⟨rfl, rfl⟩ := Prod.mk.inj hpair
  exact hv

theorem task_set {u : DrainTask} (h : d.tasks[i]? = some u) (v : DrainTask) :
    (d.tasks.set i v)[i]? = some v :=
  List.getElem?_set_self (List.getElem?_eq_some_iff.mp h).1

theorem Step.live_of_move (hstep : Step throttle d (.move i m) e) :
    ∃ u, d.tasks[i]? = some u ∧ u.live = true := by
  cases hstep <;> exact ⟨_, by assumption, rfl⟩

theorem Step.of_checking (hstep : Step throttle d (.move i m) e)
    (h : d.tasks[i]? = some .checking) :
    d.queue.cancelled = true ∧ e = d.setTask i .leaving ∨
      d.queue.cancelled = false ∧ e = d.setTask i .taking := by
  cases hstep <;> simp_all

theorem Step.of_taking (hstep : Step throttle d (.move i m) e)
    (h : d.tasks[i]? = some .taking) :
    (∃ t rest, Ticket.takeFirst d.queue.pending = some (t, rest) ∧
      e = ((d.note (.taken i t)).withQueue { d.queue with pending := rest }).setTask i
        (.holding t)) ∨
      d.queue.pending = [] ∧ e = d.endTask i := by
  cases hstep <;> simp_all

theorem Step.of_holding (hstep : Step throttle d (.move i m) e)
    (h : d.tasks[i]? = some (.holding t)) :
    (∃ item, e = d.setTask i (.waiting t item (d.clock + throttle))) ∨
      e = (d.note (.skipped t)).setTask i .checking := by
  cases hstep with
  | resolve _ u item hu =>
    obtain rfl : u = t := by simpa [hu] using h
    exact Or.inl ⟨item, rfl⟩
  | skip _ u hu =>
    obtain rfl : u = t := by simpa [hu] using h
    exact Or.inr rfl
  | _ => simp_all

theorem Step.of_waiting {item : Item} {wakeAt : Nat}
    (hstep : Step throttle d (.move i m) e) (h : d.tasks[i]? = some (.waiting t item wakeAt)) :
    wakeAt ≤ d.clock ∧ e = (d.note (.started t item)).setTask i (.refreshing t item) ∨
      d.queue.cancelled = true ∧ e = (d.note (.dropped t)).setTask i .leaving := by
  cases hstep <;> simp_all

end Positions

/-! ## Coarser views of a step -/

/-- What a step can do to the tasks and to the mark of the queue. -/
inductive TaskStep (d : Drainage) (a : Act) (e : Drainage) : Prop where
  | still (tasks : e.tasks = d.tasks) (mark : e.queue.draining = d.queue.draining)
  | started (idle : d.queue.draining = false) (tasks : e.tasks = d.tasks ++ [.checking])
      (mark : e.queue.draining = true)
  | moved {i : Nat} {m : Move} {t u : DrainTask} (act : a = .move i m)
      (at_ : d.tasks[i]? = some t) (live : t.live = true) (goesOn : u.live = true)
      (tasks : e.tasks = d.tasks.set i u) (mark : e.queue.draining = d.queue.draining)
  | ended {i : Nat} {m : Move} {t : DrainTask} (act : a = .move i m)
      (at_ : d.tasks[i]? = some t) (live : t.live = true)
      (tasks : e.tasks = d.tasks.set i .ended) (mark : e.queue.draining = false)

theorem Step.taskStep (hstep : Step throttle d a e) : TaskStep d a e := by
  cases hstep with
  | start r _ hidle => exact .started hidle rfl rfl
  | halt i ht => exact .moved rfl ht rfl rfl rfl rfl
  | proceed i ht => exact .moved rfl ht rfl rfl rfl rfl
  | pop i ht => exact .moved rfl ht rfl rfl rfl rfl
  | exhaust i ht => exact .ended rfl ht rfl rfl rfl
  | resolve i t item ht => exact .moved rfl ht rfl rfl rfl rfl
  | skip i t ht => exact .moved rfl ht rfl rfl rfl rfl
  | wake i t item wakeAt ht => exact .moved rfl ht rfl rfl rfl rfl
  | abandon i t item wakeAt ht => exact .moved rfl ht rfl rfl rfl rfl
  | finish i t item ending ht => exact .moved rfl ht rfl rfl rfl rfl
  | quit i t item ht => exact .moved rfl ht rfl rfl rfl rfl
  | leave i ht => exact .ended rfl ht rfl rfl rfl
  | _ => exact .still rfl rfl

/-- What a step can do to the pending requests and to what is told of them. -/
inductive QueueStep (d : Drainage) (a : Act) (e : Drainage) : Prop where
  | still (pending : e.queue.pending = d.queue.pending)
      (counter : e.queue.accepted = d.queue.accepted) (accepted : e.accepted = d.accepted)
      (taken : e.taken = d.taken)
  | accepted {r : RefreshRequest} {inRuntime : Bool} (act : a = .enqueue r inRuntime)
      (opened : d.queue.closed = false)
      (pending : e.queue.pending = d.queue.pending ++ [⟨r, d.queue.accepted⟩])
      (counter : e.queue.accepted = d.queue.accepted + 1)
      (accepted : e.accepted = d.accepted ++ [⟨r, d.queue.accepted⟩])
      (taken : e.taken = d.taken)
  | popped {i : Nat} {t : Ticket} (act : a = .move i .take)
      (at_ : d.tasks[i]? = some .taking)
      (first : Ticket.takeFirst d.queue.pending = some (t, e.queue.pending))
      (counter : e.queue.accepted = d.queue.accepted) (accepted : e.accepted = d.accepted)
      (taken : e.taken = d.taken ++ [(i, t)])

theorem Step.queueStep (hstep : Step throttle d a e) : QueueStep d a e := by
  cases hstep with
  | accept r inRuntime hopened =>
    exact .accepted rfl hopened rfl rfl (by simp) (by simp)
  | start r hopened =>
    exact .accepted rfl hopened rfl rfl (by simp) (by simp)
  | pop i ht t rest hfirst =>
    exact .popped rfl ht hfirst rfl (by simp) (by simp)
  | skip => exact .still rfl rfl (by simp) (by simp)
  | wake => exact .still rfl rfl (by simp) (by simp)
  | abandon => exact .still rfl rfl (by simp) (by simp)
  | finish => exact .still rfl rfl (by simp) (by simp)
  | quit => exact .still rfl rfl (by simp) (by simp)
  | _ => exact .still rfl rfl rfl rfl

/-- What a step can do to the log and to the clock. -/
inductive LogStep (d : Drainage) (e : Drainage) : Prop where
  | still (log : e.log = d.log) (forward : d.clock ≤ e.clock)
  | noted (line : LogEntry) (log : e.log = (d.clock, line) :: d.log) (clock : e.clock = d.clock)

theorem Step.logStep (hstep : Step throttle d a e) : LogStep d e := by
  cases hstep with
  | accept r => exact .noted _ rfl rfl
  | start r => exact .noted _ rfl rfl
  | elapse moment hforward => exact .still rfl hforward
  | stall moment hforward => exact .still rfl hforward
  | pop => exact .noted _ rfl rfl
  | skip => exact .noted _ rfl rfl
  | wake => exact .noted _ rfl rfl
  | abandon => exact .noted _ rfl rfl
  | finish => exact .noted _ rfl rfl
  | quit => exact .noted _ rfl rfl
  | _ => exact .still rfl (Nat.le_refl _)

/-- A log only grows. -/
theorem Step.log_suffix (hstep : Step throttle d a e) : d.log <:+ e.log := by
  cases hstep.logStep with
  | still hlog => exact hlog ▸ List.suffix_rfl
  | noted line hlog => exact hlog ▸ List.suffix_cons _ _

/-- What has been told is told from then on, in the same order. -/
theorem Step.told_prefix (hstep : Step throttle d a e) (reading : LogEntry → Option α) :
    d.told reading <+: e.told reading := by
  obtain ⟨new, hnew⟩ := hstep.log_suffix
  unfold told
  rw [← hnew, List.reverse_append, List.filterMap_append]
  exact List.prefix_append _ _

/-! ## Runs -/

theorem performAll_cons_of_eq (h : d.perform throttle a = some e) (as : List Act) :
    d.performAll throttle (a :: as) = e.performAll throttle as := by
  rw [performAll, h, Option.bind_some]

theorem performAll_append (d : Drainage) (as bs : List Act) :
    d.performAll throttle (as ++ bs) =
      (d.performAll throttle as).bind fun e => e.performAll throttle bs := by
  induction as generalizing d with
  | nil => rfl
  | cons a rest ih =>
    cases h : d.perform throttle a with
    | none => simp [performAll, h]
    | some e => simp [performAll, h, ih]

/-- What holds of the empty run and is kept by one more step holds of every run. -/
theorem run_induction {d : Drainage} (holds : List Act → Drainage → Prop)
    (start : holds [] d)
    (step : ∀ {as : List Act} {e f : Drainage} {a : Act},
      d.performAll throttle as = some e → holds as e → Step throttle e a f →
        holds (as ++ [a]) f)
    {as : List Act} (hrun : d.performAll throttle as = some e) : holds as e := by
  induction as using List.reverseRecOn generalizing e with
  | nil =>
    obtain rfl := Option.some.inj hrun
    exact start
  | append_singleton as a ih =>
    rw [performAll_append, Option.bind_eq_some_iff] at hrun
    obtain ⟨mid, hmid, hlast⟩ := hrun
    have hstep : mid.perform throttle a = some e := by
      simpa [performAll] using hlast
    exact step hmid (ih hmid) (step_of_perform hstep)

end Drainage

end MediaRefresh
