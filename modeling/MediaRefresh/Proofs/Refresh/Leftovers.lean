import MediaRefresh.Proofs.Queue.Step
import MediaRefresh.Proofs.Refresh.Tidiness
import MediaRefresh.Session

/-!
# Refresh: entries behind the queue

The queue hands one request after the other to a manager and goes on when a refresh crashes.
Behind a refresh that ends no entry is left that was not there before.  The completion of a
refresh comes after its work, so a crash passes it over, and the entries of what has started
stay behind.
-/

set_option autoImplicit false

namespace MediaRefresh

open Numeric RefreshM

variable {σ ω : Type}

/-! ## What is logged of endings -/

/-- The ticket of a refresh that has ended, and how. -/
@[simp] def LogEntry.ending? : LogEntry → Option (Ticket × Ending)
  | finished t ending => some (t, ending)
  | _ => none

namespace Drainage

variable {throttle : Nat} {d e : Drainage} {a : Act}

/-- The refreshes that have ended, in order, and how. -/
abbrev endings (d : Drainage) : List (Ticket × Ending) := d.told LogEntry.ending?

theorem Step.endings_of_silent (hstep : Step throttle d a e)
    (h : ∀ i ending, a ≠ .move i (.finish ending)) : e.endings = d.endings := by
  cases hstep with
  | finish i t item ending => exact absurd rfl (h i ending)
  | quit i t item => exact absurd rfl (h i .cancelled)
  | _ => simp

end Drainage

namespace Shift

variable {throttle i : Nat} {a : Act} {s : Shift ω}

theorem endings_act (s : Shift ω) (h : ∀ i ending, a ≠ .move i (.finish ending)) :
    (s.act throttle a).drainage.endings = s.drainage.endings := by
  cases hperform : s.drainage.perform throttle a with
  | none => rw [act, hperform, Option.getD_none]
  | some e =>
    rw [act, hperform, Option.getD_some]
    exact (Drainage.step_of_perform hperform).endings_of_silent h

theorem endings_finish {t : Ticket} {item : Item} (ending : Ending)
    (h : s.drainage.tasks[i]? = some (.refreshing t item)) :
    (s.act throttle (.move i (.finish ending))).drainage.endings =
      s.drainage.endings ++ [(t, ending)] := by
  simp [act, Drainage.perform, Drainage.moveTask, h]

/-- Time that passes changes the clock at most. -/
theorem act_elapse (throttle : Nat) (s : Shift ω) (moment : Nat) :
    ∃ clock, s.act throttle (.elapse moment) =
      { s with drainage := s.drainage.atMoment clock } := by
  unfold act Drainage.perform
  dsimp only
  split
  · exact ⟨moment, rfl⟩
  · exact ⟨s.drainage.clock, rfl⟩

/-- As far as time passes for the queue, it passes for the work. -/
theorem lapse_elapse (throttle : Nat) (worker : Worker ω) (s : Shift ω) (moment : Nat) :
    ∃ clock, s.lapse throttle worker (.elapse moment) =
      { s with
        drainage := s.drainage.atMoment clock
        work := worker.pass (clock - s.drainage.clock) s.work } := by
  obtain ⟨clock, hclock⟩ := s.act_elapse throttle moment
  refine ⟨clock, ?_⟩
  rw [lapse, hclock]
  rfl

/-- Cancelling changes the queue at most. -/
theorem act_cancel_if (throttle : Nat) (s : Shift ω) (cancels : Bool) :
    ∃ queue, (if cancels then s.act throttle .cancel else s) =
      { s with drainage := s.drainage.withQueue queue } := by
  cases cancels with
  | true => exact ⟨_, rfl⟩
  | false => exact ⟨s.drainage.queue, rfl⟩

end Shift

/-! ## Requests handed to a manager -/

/-- A request that has been handed to a manager. -/
structure Served (σ : Type) where
  ticket : Ticket
  item : Item
  /-- the world in which its refresh begins -/
  begins : World σ

namespace Served

variable (r : Served σ) (m : Manager σ)

/-- What its refresh comes to. -/
def result : EStateM.Result Interrupt (World σ) Unit :=
  m.refreshQueued r.item r.ticket.request.options r.begins

/-- The world in which its refresh ends. -/
def ends : World σ := World.after (r.result m)

/-- What is logged of its end. -/
def ending : Ticket × Ending := (r.ticket, .ofResult (r.result m))

/-- What a served request leaves in the tracker.  Unless its refresh crashes, everything that
has started has completed and no entry is left of it.  If it crashes, either nothing has
started yet, or what has started and not completed keeps its entry. -/
structure Leaves : Prop where
  ended : (r.ending m).2 ≠ .crashed → ∃ events, r.begins.Concluded (r.ends m) events
  crashed : (r.ending m).2 = .crashed → r.begins.Concluded (r.ends m) [] ∨
    ∃ events, r.begins.CutOff (r.ends m) events

/-- Requests are served one after the other, between the worlds of the first and the last, and
nothing but time passes between them.  The refresh of each is told whether the queue has been
cancelled. -/
inductive InTurn (m : Manager σ) : World σ → List (Served σ) → World σ → Prop where
  | done (w : World σ) (wait : Nat) : InTurn m w [] (w.later m.host wait)
  | next {w last : World σ} {r : Served σ} {rest : List (Served σ)} (wait : Nat)
      (begins : r.begins = { w.later m.host wait with cancelled := r.begins.cancelled })
      (later : InTurn m (r.ends m) rest last) : InTurn m w (r :: rest) last

variable {r m}

theorem ending_crashed_iff : (r.ending m).2 = .crashed ↔ World.Crashed (r.result m) := by
  unfold ending
  cases r.result m with
  | ok done last => simp [Ending.ofResult, World.Crashed]
  | error e last =>
    cases e with
    | crashed => simp [Ending.ofResult, World.Crashed]
    | failed e => cases e <;> simp [Ending.ofResult, World.Crashed]

theorem leaves_of_wentThrough {events : List RefreshEvent}
    (h : r.begins.WentThrough (r.result m) events) : r.Leaves m where
  ended hends := ⟨events, h.ended (mt ending_crashed_iff.mpr hends)⟩
  crashed hcrashed := Or.inr (h.crashed (ending_crashed_iff.mp hcrashed))

theorem leaves (r : Served σ) (m : Manager σ) : r.Leaves m := by
  by_cases hartist : r.item.kind = .musicArtist
  · have hresult : r.result m = m.refreshArtist r.item r.ticket.request.options r.begins := by
      rw [result, Manager.refreshQueued, if_pos hartist]
    obtain ⟨last, hcrashed, hconcluded⟩ | ⟨mid, attempts, -, -, hthrough⟩ :=
      m.refreshArtist_attempted r.item r.ticket.request.options r.begins
    · rw [← hresult] at hcrashed
      have hcrash : (r.ending m).2 = .crashed := by
        rw [ending_crashed_iff, hcrashed]
        trivial
      refine ⟨fun hends => absurd hcrash hends, fun _ => Or.inl ?_⟩
      rw [ends, hcrashed]
      exact hconcluded
    · exact leaves_of_wentThrough (hresult ▸ hthrough)
  · have hresult : r.result m = m.refreshItem r.item r.ticket.request.options r.begins := by
      rw [result, Manager.refreshQueued, if_neg hartist]
    obtain ⟨own, folders, -, -, hthrough⟩ :=
      m.refreshItem_attempted r.item r.ticket.request.options r.begins
    exact leaves_of_wentThrough (hresult ▸ hthrough)

theorem InTurn.nothing (w : World σ) : InTurn m w [] w := by
  have hdone := InTurn.done (m := m) w 0
  rwa [World.later_zero] at hdone

/-- Time that has passed before belongs to the first wait. -/
theorem InTurn.of_later {w last : World σ} {served : List (Served σ)} {wait : Nat}
    (h : InTurn m (w.later m.host wait) served last) : InTurn m w served last := by
  cases h with
  | done _ more =>
    rw [World.later_later]
    exact .done w (wait + more)
  | next more begins later =>
    rw [World.later_later] at begins
    exact .next (wait + more) begins later

/-- Nothing but time passes behind the last. -/
theorem InTurn.then_later {w last : World σ} {served : List (Served σ)} (wait : Nat)
    (h : InTurn m w served last) : InTurn m w served (last.later m.host wait) := by
  induction h with
  | done w before =>
    rw [World.later_later]
    exact .done w (before + wait)
  | next before begins _ ih => exact .next before begins ih

/-- Where no refresh crashes none leaves an entry. -/
theorem InTurn.concluded {w last : World σ} {served : List (Served σ)}
    (h : InTurn m w served last) (hends : ∀ r ∈ served, (r.ending m).2 ≠ .crashed) :
    ∃ events, w.Concluded last events := by
  induction h with
  | done w wait => exact ⟨[], .of_same rfl rfl⟩
  | @next w last r rest wait begins later ih =>
    obtain ⟨hhere, hrest⟩ := List.forall_mem_cons.mp hends
    obtain ⟨events, hevents⟩ := (r.leaves m).ended hhere
    obtain ⟨more, hmore⟩ := ih hrest
    have hsame : w.Concluded r.begins [] := by
      rw [begins]
      exact .of_same rfl rfl
    exact ⟨_, (hsame.trans hevents).trans hmore⟩

end Served

namespace Shift

/-- A request as the queue hands it to a manager, at the moment for which its end is due. -/
def serving (m : Manager σ) (throttle : Nat) (s : Shift (World σ)) (t : Ticket) (item : Item) :
    Served σ :=
  let due := s.lapse throttle m.worker (.elapse (max s.drainage.clock s.busyUntil))
  ⟨t, item, { due.work with cancelled := s.drainage.queue.cancelled }⟩

/-- What the queue hands to a manager if its next move is the end of a refresh. -/
def handed? (m : Manager σ) (throttle : Nat) (s : Shift (World σ)) : Option (Served σ) :=
  match s.drainage.current? with
  | some (_, .refreshing t item) => some (s.serving m throttle t item)
  | _ => none

theorem task_of_handed {m : Manager σ} {throttle : Nat} {s : Shift (World σ)} {r : Served σ}
    (h : s.handed? m throttle = some r) :
    ∃ i : Nat, s.drainage.tasks[i]? = some (.refreshing r.ticket r.item) := by
  unfold handed? at h
  split at h
  · rename_i i t item hcurrent
    obtain rfl := Option.some.inj h
    exact ⟨i, Drainage.getElem?_of_current hcurrent⟩
  · cases h

/-- What the queue hands to a manager while it runs. -/
def servedIn (m : Manager σ) (throttle moment : Nat) : Nat → Shift (World σ) → List (Served σ)
  | 0, _ => []
  | fuel + 1, s =>
    match s.next? throttle m.worker moment with
    | some next => (s.handed? m throttle).toList ++ servedIn m throttle moment fuel next
    | none => []

variable {m : Manager σ} {throttle moment : Nat} {s next : Shift (World σ)}

/-- A refresh ends at some moment, and may have cancelled the queue by then. -/
theorem next?_of_refreshing {i : Nat} {t : Ticket} {item : Item}
    (hcurrent : s.drainage.current? = some (i, .refreshing t item))
    (h : s.next? throttle m.worker moment = some next) :
    ∃ clock queue, next = act throttle
      ⟨(s.drainage.atMoment clock).withQueue queue, (s.serving m throttle t item).ends m,
        s.busyUntil⟩
      (.move i (.finish ((s.serving m throttle t item).ending m).2)) := by
  unfold next? at h
  rw [hcurrent] at h
  dsimp only at h
  split at h
  · obtain ⟨clock, hclock⟩ :=
      s.lapse_elapse throttle m.worker (max s.drainage.clock s.busyUntil)
    have hserving : s.serving m throttle t item = ⟨t, item,
        { m.worker.pass (clock - s.drainage.clock) s.work with
          cancelled := s.drainage.queue.cancelled }⟩ := by
      rw [serving, hclock]
    rw [hclock] at h
    rw [hserving]
    generalize hdue : m.worker.pass (clock - s.drainage.clock) s.work = due at h
    let r : Served σ := ⟨t, item, { due with cancelled := s.drainage.queue.cancelled }⟩
    let ended : Shift (World σ) := ⟨s.drainage.atMoment clock, r.ends m, s.busyUntil⟩
    have hnext : next = act throttle
        (if (r.ends m).cancelled then ended.act throttle .cancel else ended)
        (.move i (.finish (r.ending m).2)) := (Option.some.inj h).symm
    obtain ⟨queue, hqueue⟩ := act_cancel_if throttle ended (r.ends m).cancelled
    rw [hqueue] at hnext
    exact ⟨clock, queue, hnext⟩
  · cases h

/-- Only the end of a refresh changes more of the world than time does, and what is logged of
endings. -/
theorem next?_handed (h : s.next? throttle m.worker moment = some next) :
    ∃ wait, match s.handed? m throttle with
    | some r => r.begins = { s.work.later m.host wait with cancelled := r.begins.cancelled } ∧
        next.work = r.ends m ∧ next.drainage.endings = s.drainage.endings ++ [r.ending m]
    | none => next.work = s.work.later m.host wait ∧
        next.drainage.endings = s.drainage.endings := by
  unfold handed?
  cases hcurrent : s.drainage.current? with
  | none =>
    rw [next?, hcurrent] at h
    cases h
  | some present =>
    obtain ⟨i, task⟩ := present
    cases task with
    | refreshing t item =>
      obtain ⟨clock, queue, rfl⟩ := next?_of_refreshing hcurrent h
      have htask : s.drainage.tasks[i]? = some (.refreshing t item) :=
        Drainage.getElem?_of_current hcurrent
      exact ⟨_, rfl, rfl, endings_finish _ htask⟩
    | waiting t item wakeAt =>
      rw [next?, hcurrent] at h
      dsimp only at h ⊢
      split at h
      · obtain rfl := Option.some.inj h
        exact ⟨0, (World.later_zero _ _).symm, s.endings_act (by simp)⟩
      · split at h
        · obtain rfl := Option.some.inj h
          exact ⟨_, rfl, (endings_act _ (by simp)).trans (s.endings_act (by simp))⟩
        · cases h
    | ended =>
      rw [next?, hcurrent] at h
      cases h
    | _ =>
      -- every other task makes one move, which ends no refresh
      rw [next?, hcurrent] at h
      obtain rfl := Option.some.inj h
      exact ⟨0, (World.later_zero _ _).symm, s.endings_act (by simp)⟩

/-- A run hands requests over one after the other, and logs how the refresh of each ends. -/
theorem run_served (m : Manager σ) (throttle moment fuel : Nat) (s : Shift (World σ)) :
    let served := servedIn m throttle moment fuel s
    let last := s.run throttle m.worker moment fuel
    Served.InTurn m s.work served last.work ∧
      last.drainage.endings = s.drainage.endings ++ served.map (·.ending m) := by
  induction fuel generalizing s with
  | zero => exact ⟨Served.InTurn.nothing s.work, (List.append_nil _).symm⟩
  | succ fuel ih =>
    unfold servedIn run
    cases hnext : s.next? throttle m.worker moment with
    | none => exact ⟨Served.InTurn.nothing s.work, (List.append_nil _).symm⟩
    | some next =>
      obtain ⟨hturn, hendings⟩ := ih next
      obtain ⟨wait, hstep⟩ := next?_handed hnext
      dsimp only
      cases hhanded : s.handed? m throttle with
      | none =>
        rw [hhanded] at hstep
        obtain ⟨hwork, hsame⟩ := hstep
        rw [hwork] at hturn
        rw [hsame] at hendings
        exact ⟨hturn.of_later, hendings⟩
      | some r =>
        rw [hhanded] at hstep
        obtain ⟨hbegins, hwork, hmore⟩ := hstep
        rw [hwork] at hturn
        rw [hmore, List.append_assoc] at hendings
        exact ⟨.next wait hbegins hturn, hendings⟩

end Shift

namespace Session

/-- The requests that are handed to the manager of a session up to a moment. -/
def served (s : Session σ) (moment : Nat) : List (Served σ) :=
  s.shift.servedIn s.manager s.throttle moment (s.shift.bound s.manager.worker)

/-- The requests that a session serves up to a moment follow one another, each is logged with
its end, and what it leaves in the tracker depends on whether its refresh crashes.  If none
does, no entry is left of them. -/
theorem entries_behind_requests (s : Session σ) (moment : Nat) :
    Served.InTurn s.manager s.world (s.served moment) (s.advanceTo moment).world ∧
      (s.advanceTo moment).shift.drainage.endings =
        s.shift.drainage.endings ++ (s.served moment).map (·.ending s.manager) ∧
      (∀ r ∈ s.served moment, r.Leaves s.manager) ∧
      ((∀ r ∈ s.served moment, (r.ending s.manager).2 ≠ .crashed) →
        ∃ events, s.world.Concluded (s.advanceTo moment).world events) := by
  obtain ⟨hturn, hendings⟩ := s.shift.run_served s.manager s.throttle moment
    (s.shift.bound s.manager.worker)
  have hendings' : (s.advanceTo moment).shift.drainage.endings =
      s.shift.drainage.endings ++ (s.served moment).map (·.ending s.manager) :=
    (Shift.endings_act _ (by simp)).trans hendings
  have hturn' : Served.InTurn s.manager s.world (s.served moment) (s.advanceTo moment).world :=
    hturn.then_later _
  exact ⟨hturn', hendings', fun r _ => r.leaves s.manager, hturn'.concluded⟩

/-! ## A shelf in the queue -/

open Rehearsal in
/-- A session in which the refresh of a shelf has been queued. -/
def shelfQueued (first : ServiceOutcome) : Session Stage :=
  (fresh (shelves first) { Manager.emptyStage with items := [shelf] }).queueRefresh
    ⟨shelf.id, .standard, .normal⟩

open Rehearsal in
theorem shelf_leaves_nothing :
    ((shelfQueued damaged).advanceTo 1000).queue.draining = false ∧
      ((shelfQueued damaged).served 1000).length = 1 ∧
      ((shelfQueued damaged).advanceTo 1000).world.tracker = .empty := by
  have hends : ∀ r ∈ (shelfQueued damaged).served 1000,
      (r.ending (shelfQueued damaged).manager).2 ≠ .crashed := by decide +kernel
  obtain ⟨-, -, -, hconcluded⟩ := entries_behind_requests (shelfQueued damaged) 1000
  obtain ⟨events, hevents⟩ := hconcluded hends
  exact ⟨by decide +kernel, by decide +kernel, hevents.tracker⟩

open Rehearsal in
/-- The queue goes on behind a refresh that has crashed, and the entries of the shelf and of its
first folder stay. -/
theorem crash_leaves_entries :
    ¬ ∀ (s : Session Stage) (moment : Nat), s.world.tracker = .empty →
      (s.advanceTo moment).queue.draining = false →
        (s.advanceTo moment).world.tracker = .empty := by
  intro h
  have hidle : ((shelfQueued .crashed).advanceTo 1000).queue.draining = false := by decide +kernel
  have hleft : ((shelfQueued .crashed).advanceTo 1000).world.tracker.active.map (·.item) =
      [shelf.id, attic.id] := by decide +kernel
  rw [h (shelfQueued .crashed) 1000 rfl hidle] at hleft
  cases hleft

end Session

end MediaRefresh
