import MediaRefresh.Proofs.Refresh.Artist
import MediaRefresh.Proofs.Refresh.Timeless
import MediaRefresh.Proofs.Session.Run

/-!
# Sessions: refreshing at once and through the queue

A refresh in full that is called directly does the same as one that an idle queue is left alone
with: the same calls in the same order, the same announcements, the same ending.  The queue
waits before it starts, so that the two agree exactly when the direct call comes as late, and
otherwise up to the stamps, as long as nobody looks at the time.  Artists are the exception,
since the queue refreshes them in a way of their own, while the direct call refreshes an artist
as it does any folder.
-/

set_option autoImplicit false

namespace MediaRefresh

open RefreshM

variable {σ ω : Type}

/-! ## A queue with one task at work -/

/-- A queue whose last task stands at `u` while the others have ended. -/
def Drainage.working (past : Nat) (u : DrainTask) (q : RefreshQueue) (clock : Nat)
    (log : List (Nat × LogEntry)) : Drainage :=
  ⟨q, List.replicate past .ended ++ [u], clock, log⟩

section Working

variable {past clock throttle moment busy : Nat} {u v : DrainTask} {q : RefreshQueue}
  {log : List (Nat × LogEntry)} {w : ω} {worker : Worker ω} {t : Ticket} {item : Item}

theorem Drainage.current?_working (h : u.live = true) :
    (working past u q clock log).current? = some (past, u) := by
  have hended : (List.replicate past DrainTask.ended).findIdx? DrainTask.live = none := by
    rw [List.findIdx?_eq_none_iff]
    exact fun v hv => List.eq_of_mem_replicate hv ▸ rfl
  have hindex : (List.replicate past DrainTask.ended ++ [u]).findIdx? DrainTask.live =
      some past := by
    rw [List.findIdx?_append, hended]
    simp [List.findIdx?_cons, h]
  simp [current?, working, hindex]

theorem Drainage.perform_working (m : Move) :
    (working past u q clock log).perform throttle (.move past m) =
      (working past u q clock log).moveTask throttle past u m :=
  perform_move_of_eq (by simp [working]) m

@[simp] theorem Drainage.queue_working : (working past u q clock log).queue = q := rfl

@[simp] theorem Drainage.clock_working : (working past u q clock log).clock = clock := rfl

@[simp] theorem Drainage.setTask_working :
    (working past u q clock log).setTask past v = working past v q clock log := by
  simp [working, setTask]

@[simp] theorem Drainage.note_working (line : LogEntry) :
    (working past u q clock log).note line = working past u q clock ((clock, line) :: log) := rfl

@[simp] theorem Drainage.withQueue_working (rest : RefreshQueue) :
    (working past u q clock log).withQueue rest = working past u rest clock log := rfl

/-- Time passes as far as the task at work lets it. -/
theorem Drainage.elapse_working (hforward : clock ≤ moment)
    (hallows : (working past u q clock log).allows moment u = true) :
    (working past u q clock log).perform throttle (.elapse moment) =
      some (working past u q moment log) := by
  have hall : (working past u q clock log).tasks.all
      ((working past u q clock log).allows moment) = true := by
    have hended : (working past u q clock log).allows moment .ended = true := rfl
    rw [working, List.all_append, List.all_replicate]
    simpa [working, allows] using hallows
  have hpasses : decide ((working past u q clock log).clock ≤ moment) = true :=
    decide_eq_true hforward
  rw [perform, hall, hpasses]
  rfl

namespace Shift

/-- What time passes for the task at work passes for the worker. -/
theorem lapse_working (hforward : clock ≤ moment)
    (hallows : (Drainage.working past u q clock log).allows moment u = true) :
    lapse throttle worker ⟨.working past u q clock log, w, busy⟩ (.elapse moment) =
      ⟨.working past u q moment log, worker.pass (moment - clock) w, busy⟩ := by
  rw [lapse, act, Drainage.elapse_working hforward hallows]
  rfl

theorem next?_checking (hactive : q.cancelled = false) :
    next? throttle worker moment ⟨.working past .checking q clock log, w, busy⟩ =
      some ⟨.working past .taking q clock log, w, busy⟩ := by
  have hcheck : (Drainage.working past .checking q clock log).perform throttle
      (.move past .check) = some (.working past .taking q clock log) := by
    rw [Drainage.perform_working]
    simp [Drainage.moveTask, hactive]
  rw [next?, Drainage.current?_working rfl]
  simp only [act, hcheck, Option.getD_some]

theorem next?_taking (hpending : q.pending = [t]) :
    next? throttle worker moment ⟨.working past .taking q clock log, w, busy⟩ =
      some ⟨.working past (.holding t) { q with pending := [] } clock
        ((clock, .taken past t) :: log), w, busy⟩ := by
  have htake : (Drainage.working past .taking q clock log).perform throttle (.move past .take) =
      some (.working past (.holding t) { q with pending := [] } clock
        ((clock, .taken past t) :: log)) := by
    rw [Drainage.perform_working]
    simp [Drainage.moveTask, RefreshQueue.pop?, hpending, Ticket.takeFirst]
  rw [next?, Drainage.current?_working rfl]
  simp only [act, htake, Option.getD_some]

variable (worker) in
theorem next?_holding (hfound : worker.resolve w t.request.item = some item) :
    next? throttle worker moment ⟨.working past (.holding t) q clock log, w, busy⟩ =
      some ⟨.working past (.waiting t item (clock + throttle)) q clock log, w, busy⟩ := by
  have hresolve : (Drainage.working past (.holding t) q clock log).perform throttle
      (.move past (.resolve (some item))) =
        some (.working past (.waiting t item (clock + throttle)) q clock log) := by
    rw [Drainage.perform_working]
    simp [Drainage.moveTask]
  rw [next?, Drainage.current?_working rfl]
  simp only [act, hfound, hresolve, Option.getD_some]

/-- A task wakes up when its wait is over. -/
theorem next?_waiting (hactive : q.cancelled = false) (hdue : clock + throttle ≤ moment) :
    next? throttle worker moment
        ⟨.working past (.waiting t item (clock + throttle)) q clock log, w, busy⟩ =
      some ⟨.working past (.refreshing t item) q (clock + throttle)
        ((clock + throttle, .started t item) :: log),
        (worker.begin (worker.pass throttle w) item t.request.options).1,
        clock + throttle + (worker.begin (worker.pass throttle w) item t.request.options).2⟩ := by
  have hlapse : lapse throttle worker
      ⟨.working past (.waiting t item (clock + throttle)) q clock log, w, busy⟩
      (.elapse (clock + throttle)) =
        ⟨.working past (.waiting t item (clock + throttle)) q (clock + throttle) log,
          worker.pass throttle w, busy⟩ := by
    rw [lapse_working (Nat.le_add_right _ _) (by simp [Drainage.allows, hactive]),
      Nat.add_sub_cancel_left]
  have hwake : (Drainage.working past (.waiting t item (clock + throttle)) q (clock + throttle)
      log).perform throttle (.move past .wake) =
        some (.working past (.refreshing t item) q (clock + throttle)
          ((clock + throttle, .started t item) :: log)) := by
    rw [Drainage.perform_working]
    simp [Drainage.moveTask]
  have hmax : max clock (clock + throttle) = clock + throttle := by omega
  rw [next?, Drainage.current?_working rfl]
  simp only [Drainage.queue_working, Drainage.clock_working, hactive, hmax, hdue, hlapse, act,
    hwake, Option.getD_some, if_true, Bool.false_eq_true, if_false]

variable (past throttle log t item) in
/-- A refresh that takes no time ends at once, with what the manager makes of the world. -/
theorem next?_refreshing {σ : Type} (m : Manager σ) (w : World σ) (hactive : q.cancelled = false)
    (hdue : clock ≤ moment) :
    let result := m.refreshQueued item t.request.options { w with cancelled := false }
    ∃ u q', (u = .checking ∨ u = .leaving) ∧ q'.pending = q.pending ∧
      next? throttle m.worker moment ⟨.working past (.refreshing t item) q clock log, w, clock⟩ =
        some ⟨.working past u q' clock ((clock, .finished t (.ofResult result)) :: log),
          World.after result, clock⟩ := by
  intro result
  have hpassed : m.worker.pass 0 w = w := w.later_zero m.host
  have htimed : lapse throttle m.worker
      ⟨.working past (.refreshing t item) q clock log, w, clock⟩ (.elapse clock) =
        ⟨.working past (.refreshing t item) q clock log, w, clock⟩ := by
    rw [lapse_working (Nat.le_refl _) rfl, Nat.sub_self, hpassed]
  -- the refresh may have cancelled the queue
  have hcancel (cancels : Bool) : ∃ q', q'.pending = q.pending ∧
      (if cancels = true then
          act throttle ⟨.working past (.refreshing t item) q clock log, World.after result, clock⟩
            .cancel
        else ⟨.working past (.refreshing t item) q clock log, World.after result, clock⟩) =
        ⟨.working past (.refreshing t item) q' clock log, World.after result, clock⟩ := by
    cases cancels with
    | true => exact ⟨{ q with cancelled := true }, rfl, rfl⟩
    | false => exact ⟨q, rfl, rfl⟩
  obtain ⟨q', hpending, hqueue⟩ := hcancel (World.after result).cancelled
  have hfinish : (Drainage.working past (.refreshing t item) q' clock log).perform throttle
      (.move past (.finish (.ofResult result))) =
        some (.working past (if Ending.ofResult result = .cancelled then .leaving else .checking)
          q' clock ((clock, .finished t (.ofResult result)) :: log)) := by
    rw [Drainage.perform_working]
    simp [Drainage.moveTask]
  refine ⟨if Ending.ofResult result = .cancelled then .leaving else .checking, q', ?_, hpending, ?_⟩
  · split
    · exact Or.inr rfl
    · exact Or.inl rfl
  · have hended : (m.worker.complete w item t.request.options q.cancelled) =
        (World.after result, ⟨[], (World.after result).cancelled, .ofResult result⟩) := by
      rw [hactive]
      rfl
    rw [next?, Drainage.current?_working rfl]
    simp only [Drainage.queue_working, Drainage.clock_working, Nat.max_self, hdue, if_true, htimed,
      hended, List.map_nil, acts, List.foldl_nil, hqueue]
    rw [act, hfinish, Option.getD_some]

theorem run_of_next {s next : Shift ω} (h : s.next? throttle worker moment = some next)
    (fuel : Nat) :
    s.run throttle worker moment (fuel + 1) = next.run throttle worker moment fuel := by
  rw [run, h]

variable (past throttle busy log) in
/-- A task serves the one pending request in five turns: it asks, takes, looks up, wakes up and
ends the refresh. -/
theorem run_one_request {σ : Type} (m : Manager σ) (w : World σ) (hactive : q.cancelled = false)
    (hpending : q.pending = [t]) (hfound : m.host.item? w.state t.request.item = some item)
    (hdue : clock + throttle ≤ moment) (fuel : Nat) :
    let result := m.refreshQueued item t.request.options
      { w.later m.host throttle with cancelled := false }
    ∃ u q', (u = .checking ∨ u = .leaving) ∧ q'.pending = [] ∧
      run throttle m.worker moment (fuel + 5) ⟨.working past .checking q clock log, w, busy⟩ =
        run throttle m.worker moment fuel
          ⟨.working past u q' (clock + throttle)
              ((clock + throttle, .finished t (.ofResult result)) ::
                (clock + throttle, .started t item) :: (clock, .taken past t) :: log),
            World.after result, clock + throttle⟩ := by
  intro result
  have htaken : ({ q with pending := [] } : RefreshQueue).cancelled = false := hactive
  obtain ⟨u, q', hu, hq', hended⟩ := next?_refreshing past throttle
    ((clock + throttle, .started t item) :: (clock, .taken past t) :: log) t item m
    (w.later m.host throttle) htaken hdue
  refine ⟨u, q', hu, hq', ?_⟩
  rw [run_of_next (next?_checking hactive), run_of_next (next?_taking hpending),
    run_of_next (next?_holding m.worker hfound),
    run_of_next (next?_waiting htaken hdue)]
  exact run_of_next hended fuel

end Shift

end Working

/-! ## Behind the last request -/

namespace Drainage

variable {throttle : Nat} {d e : Drainage} {a : Act}

/-- Nothing is pending, and no task holds a request. -/
structure Spent (d : Drainage) : Prop where
  pending : d.queue.pending = []
  idle : ∀ t ∈ d.tasks, t.held? = none

theorem Step.spent (hstep : Step throttle d a e) (hsilent : a.silent = true) (h : d.Spent) :
    e.Spent := by
  have hset {i : Nat} {u : DrainTask} (hu : u.held? = none) :
      ∀ v ∈ d.tasks.set i u, v.held? = none := fun v hv =>
    (List.mem_or_eq_of_mem_set hv).elim (h.idle v) fun heq => heq ▸ hu
  have hnot {i : Nat} {u : DrainTask} {t : Ticket} (hu : d.tasks[i]? = some u)
      (hheld : u.held? = some t) : False := by
    have hnone := h.idle u (List.mem_of_getElem? hu)
    rw [hheld] at hnone
    cases hnone
  cases hstep with
  | accept => cases hsilent
  | start => cases hsilent
  | halt => exact ⟨h.pending, hset rfl⟩
  | proceed => exact ⟨h.pending, hset rfl⟩
  | pop i hi t rest hfirst =>
    rw [h.pending] at hfirst
    cases hfirst
  | exhaust => exact ⟨h.pending, hset rfl⟩
  | resolve => cases hsilent
  | skip => cases hsilent
  | wake i t item wakeAt hi => exact (hnot hi rfl).elim
  | abandon i t item wakeAt hi => exact (hnot hi rfl).elim
  | finish i t item ending hi => exact (hnot hi rfl).elim
  | quit i t item hi => exact (hnot hi rfl).elim
  | leave => exact ⟨h.pending, hset rfl⟩
  | _ => exact ⟨h.pending, h.idle⟩

theorem Passes.spent (hpasses : d.Passes throttle e) (h : d.Spent) : e.Spent := by
  induction hpasses with
  | refl => exact h
  | step first silent _ ih => exact ih ((step_of_perform first).spent silent h)

theorem spent_working {past clock : Nat} {u : DrainTask} {q : RefreshQueue}
    {log : List (Nat × LogEntry)} (hq : q.pending = []) (hu : u.held? = none) :
    (working past u q clock log).Spent where
  pending := hq
  idle t ht := by
    obtain ht | ht := List.mem_append.mp ht
    · rw [List.eq_of_mem_replicate ht]
      rfl
    · rw [List.mem_singleton.mp ht]
      exact hu

end Drainage

namespace Session

variable {s : Session σ} {moment : Nat}

variable (moment) in
theorem turn_spent (h : s.drainage.Spent) :
    (s.perform (.turn moment)).drainage.Spent ∧
      (∃ wait, (s.perform (.turn moment)).world = s.world.later s.manager.host wait) ∧
      (s.perform (.turn moment)).drainage.endings = s.drainage.endings := by
  have hidle {i : Nat} {t : DrainTask} (ht : s.drainage.tasks[i]? = some t) : t.held? = none :=
    h.idle t (List.mem_of_getElem? ht)
  refine ⟨?_, ?_⟩
  · cases s.effect_turn moment with
    | lookedUp current step => cases hidle (Drainage.getElem?_of_current current)
    | silent asks closes looks passes => exact passes.spent h
  · obtain ⟨wait, ⟨hworld, hendings⟩ | ⟨r, hhanded, -⟩⟩ := s.turn_served moment
    · exact ⟨⟨wait, hworld⟩, hendings⟩
    · obtain ⟨i, hi⟩ := Shift.task_of_handed hhanded
      cases hidle hi

variable (moment) in
theorem turns_spent (n : Nat) (h : s.drainage.Spent) :
    (∃ wait, (s.performAll (List.replicate n (.turn moment))).world =
      s.world.later s.manager.host wait) ∧
      (s.performAll (List.replicate n (.turn moment))).drainage.endings =
        s.drainage.endings := by
  induction n generalizing s with
  | zero => exact ⟨⟨0, (World.later_zero _ _).symm⟩, rfl⟩
  | succ n ih =>
    obtain ⟨hspent, ⟨wait, hworld⟩, hendings⟩ := turn_spent moment h
    obtain ⟨⟨more, hworld'⟩, hendings'⟩ := ih hspent
    rw [hworld, manager_perform, World.later_later] at hworld'
    rw [List.replicate_succ, performAll_cons]
    exact ⟨⟨wait + more, hworld'⟩, hendings'.trans hendings⟩

/-! ## One request left alone with an idle queue -/

/-- The queue of a session is open and has nothing to do. -/
structure Ready (s : Session σ) : Prop where
  ended : ∀ t ∈ s.drainage.tasks, t = .ended
  pending : s.queue.pending = []
  idle : s.queue.draining = false
  opened : s.queue.closed = false
  active : s.queue.cancelled = false

theorem ready_fresh (m : Manager σ) (state : σ) : (fresh m state).Ready where
  ended t ht := by cases ht
  pending := rfl
  idle := rfl
  opened := rfl
  active := rfl

/-- A request queued in a session that is ready starts a task, which has nothing else to do. -/
theorem Ready.shift_queueRefresh (h : s.Ready) (r : RefreshRequest) :
    (s.queueRefresh r).shift =
      ⟨.working s.drainage.tasks.length .checking
          ⟨[⟨r, s.queue.accepted⟩], s.queue.accepted + 1, true, false, false⟩ s.drainage.clock
          ((s.drainage.clock, .accepted ⟨r, s.queue.accepted⟩) :: s.drainage.log),
        (s.queueRefresh r).world, s.shift.busyUntil⟩ := by
  obtain ⟨hended, hpending, hidle, hopened, hactive⟩ := h
  have htasks := List.eq_replicate_of_mem hended
  rcases s with
    ⟨m, ⟨⟨⟨pending, accepted, draining, closed, cancelled⟩, tasks, clock, log⟩, work, busy⟩⟩
  simp only [queue, drainage] at hpending hidle hopened hactive htasks
  subst hpending hidle hopened hactive
  exact congrArg (fun tasks => (⟨⟨⟨[⟨r, accepted⟩], accepted + 1, true, false, false⟩,
    tasks ++ [.checking], clock, (clock, .accepted ⟨r, accepted⟩) :: log⟩, _, busy⟩ :
      Shift (World σ))) htasks

/-- The request is served when the wait is over, and nothing else happens. -/
theorem Ready.serves_request (h : s.Ready) {r : RefreshRequest} {item : Item}
    (hlive : s.item? r.item = some item) (hdue : s.drainage.clock + s.throttle ≤ moment) :
    let q := s.queueRefresh r
    let result := s.manager.refreshQueued item r.options
      { q.world.later s.manager.host s.throttle with cancelled := false }
    (∃ wait, (q.advanceTo moment).world = (World.after result).later s.manager.host wait) ∧
      (q.advanceTo moment).drainage.endings =
        s.drainage.endings ++ [(⟨r, s.queue.accepted⟩, .ofResult result)] := by
  intro q result
  have hshift := h.shift_queueRefresh r
  have hfound : s.manager.host.item? q.world.state r.item = some item := hlive
  -- a run goes on for a bounded number of turns, of which the request takes five
  obtain ⟨fuel, hfuel⟩ : ∃ fuel, q.shift.bound q.manager.worker = fuel + 5 := by
    rw [hshift]
    exact ⟨_, rfl⟩
  obtain ⟨u, q', hu, hq', hrun⟩ := Shift.run_one_request s.drainage.tasks.length s.throttle
    s.shift.busyUntil ((s.drainage.clock, .accepted ⟨r, s.queue.accepted⟩) :: s.drainage.log)
    (t := ⟨r, s.queue.accepted⟩)
    (q := ⟨[⟨r, s.queue.accepted⟩], s.queue.accepted + 1, true, false, false⟩)
    s.manager q.world rfl rfl hfound hdue fuel
  -- what is left of the run, with the task at the end of its loop
  let served : Session σ := { q with
    shift := ⟨.working s.drainage.tasks.length u q' (s.drainage.clock + s.throttle)
      ((s.drainage.clock + s.throttle, .finished ⟨r, s.queue.accepted⟩ (.ofResult result)) ::
        (s.drainage.clock + s.throttle, .started ⟨r, s.queue.accepted⟩ item) ::
        (s.drainage.clock, .taken s.drainage.tasks.length ⟨r, s.queue.accepted⟩) ::
        (s.drainage.clock, .accepted ⟨r, s.queue.accepted⟩) :: s.drainage.log),
      World.after result, s.drainage.clock + s.throttle⟩ }
  have hspent : served.drainage.Spent := by
    refine Drainage.spent_working hq' ?_
    obtain rfl | rfl := hu <;> rfl
  obtain ⟨n, hturns⟩ := served.shift_run_eq moment fuel
  obtain ⟨⟨wait, hworld⟩, hendings⟩ := turns_spent moment n hspent
  have hadvance : q.advanceTo moment =
      (served.performAll (List.replicate n (.turn moment))).perform (.elapse moment) := by
    have hbound : q.shift.run q.throttle q.manager.worker moment
        (q.shift.bound q.manager.worker) =
          served.shift.run s.throttle s.manager.worker moment fuel := by
      rw [hfuel, hshift]
      exact hrun
    rw [← hturns, advanceTo, Shift.advance, hbound]
    rfl
  have hserved : served.drainage.endings =
      s.drainage.endings ++ [(⟨r, s.queue.accepted⟩, .ofResult result)] := by
    simp [served, drainage, Drainage.endings, Drainage.told, Drainage.working]
  rw [hadvance]
  refine ⟨?_, (Shift.endings_act _ (by simp)).trans (hendings.trans hserved)⟩
  -- up to the moment only time passes
  have hlast : ∃ more, ((served.performAll (List.replicate n (.turn moment))).perform
      (.elapse moment)).world = (served.performAll (List.replicate n (.turn moment))).world.later
        (served.performAll (List.replicate n (.turn moment))).manager.host more := ⟨_, rfl⟩
  obtain ⟨more, hlast⟩ := hlast
  rw [manager_performAll, hworld, World.later_later] at hlast
  exact ⟨wait + more, hlast⟩

end Session

/-! ## What is validated around an artist -/

section Validations

variable {α : Type} (m : Manager σ) (artist : Item) (options : RefreshOptions) (w : World σ)

/-- The start and the completion of a refresh validate nothing. -/
theorem validations_during (item : Item) (x : RefreshM σ α) :
    validations (World.after (during item x w)).journal =
      validations (World.after (x (startedOn item w))).journal := by
  by_cases hcrashed : World.Crashed (x (startedOn item w))
  · rw [after_during_of_crashed hcrashed]
  · rw [after_during_of_ends hcrashed, completedOn, validations_append]
    exact List.append_nil _

theorem validations_startedOn (item : Item) :
    validations (startedOn item w).journal = validations w.journal := by
  rw [startedOn, validations_append]
  exact List.append_nil _

theorem Manager.validations_groupingLines (groupings : List Item) :
    validations (groupings.map (groupingLine options)) =
      groupings.map fun grouping => (grouping, options, true) := by
  simp [validations, groupingLine, Entry.validated?, Function.comp_def]

/-- What the refresh of an artist comes to leaves the world that its own refresh leaves. -/
theorem Manager.after_artistOutcome :
    World.after (artistOutcome artist (m.refreshSingle artist options (startedOn artist w))) =
      World.after (during artist (m.refreshSingle artist options) w) := by
  rw [during_apply]
  cases m.refreshSingle artist options (startedOn artist w) with
  | ok update last => rfl
  | error e last =>
    cases e with
    | failed e => cases e <;> rfl
    | crashed => rfl

/-- The refresh of an artist validates nothing but groupings of its albums, in their order and
each with all that is below it. -/
theorem Manager.validations_refreshArtist :
    ∃ groupings, groupings <+: m.groupings w.state (m.albums artist w) ∧
      validations (World.after (m.refreshArtist artist options w)).journal =
        validations w.journal ++ groupings.map fun grouping => (grouping, options, true) := by
  have hlisted : validations (w.noting (.called (.listItems (.albumsOf artist.id)))).journal =
      validations w.journal := by
    rw [World.noting, validations_append]
    exact List.append_nil _
  have hend := m.prepareArtist_end artist options w
  generalize hprepared : m.prepareArtist artist options w = result at hend
  generalize m.groupings w.state (m.albums artist w) = groupings at hend
  cases hend with
  | @crashed before behind grouping mid _ _ journal _ =>
    have hlast : (m.answeredOn grouping options true mid).journal =
        (w.noting (.called (.listItems (.albumsOf artist.id)))).journal ++
          (before ++ [grouping]).map (groupingLine options) := by
      rw [List.map_append, ← List.append_assoc, ← journal]
      rfl
    refine ⟨before ++ [grouping], ⟨behind, List.append_assoc _ _ _⟩, ?_⟩
    rw [m.refreshArtist_of_crashed artist options hprepared, World.after, hlast,
      validations_append, hlisted, validations_groupingLines]
  | @done _ mid journal _ =>
    have hmid : validations mid.journal =
        validations w.journal ++ groupings.map fun grouping => (grouping, options, true) := by
      rw [journal, validations_append, hlisted, validations_groupingLines]
    obtain ⟨own, hown, -, hnone⟩ := m.refreshSingle_adds artist options (startedOn artist mid)
    refine ⟨groupings, List.prefix_rfl, ?_⟩
    rw [m.refreshArtist_of_prepared artist options hprepared]
    split
    · exact hmid
    · rw [after_artistOutcome, validations_during, hown, validations_append, hnone,
        validations_startedOn, hmid, List.append_nil]

/-- Behind its groupings, the refresh of an artist is that of its own metadata. -/
theorem Manager.after_refreshArtist {mid : World σ}
    (hprepared : m.prepareArtist artist options w = .ok () mid) (hactive : mid.cancelled = false) :
    World.after (m.refreshArtist artist options w) =
      World.after (during artist (m.refreshSingle artist options) mid) := by
  have hkept : ¬mid.cancelled = true := by simp [hactive]
  rw [m.refreshArtist_of_prepared artist options hprepared, if_neg hkept, after_artistOutcome]

/-- A direct refresh of an artist is that of any folder. -/
theorem Manager.refreshItem_of_artist (hkind : artist.kind = .musicArtist) :
    m.refreshItem artist options = during artist (do
      let _ ← m.refreshSingle artist options
      m.validate artist options false) := by
  rw [refreshItem_eq]
  unfold refreshWithin
  simp [hkind, ItemKind.isFolder]

/-- A direct refresh of an artist validates the artist's own children, and only these, if the
refresh of its own metadata succeeds. -/
theorem Manager.validations_refreshItem_of_artist (hkind : artist.kind = .musicArtist) :
    validations (World.after (m.refreshItem artist options w)).journal =
      validations w.journal ++
        if World.Returned (m.refreshSingle artist options (startedOn artist w)) then
          [(artist, options, false)] else [] := by
  obtain ⟨own, reports, -, -, hnone, hjournal, -⟩ := m.refreshThenValidate_reported
    (w := startedOn artist w) artist options false
      (World.isRefreshing_startedOn artist w)
  rw [m.refreshItem_of_artist artist options hkind, validations_during, hjournal,
    validations_append, validations_append, hnone, validations_startedOn, List.nil_append]
  split
  · simp
  · rfl

end Validations

namespace Session

variable {s : Session σ}

theorem refreshInFull_apply (m : Manager σ) {id : ItemId} {item : Item} {w : World σ}
    (h : m.host.item? w.state id = some item) :
    m.refreshInFull id w = m.refreshItem item .full w := by
  have hget : (get : RefreshM σ (World σ)) w = .ok w w := rfl
  unfold Manager.refreshInFull
  rw [bind_of_ok hget, h]

/-- What a result comes to for the queue does not depend on when it is reached. -/
theorem ofResult_of_endsAkin {α : Type} {alike : σ → σ → Prop}
    {result result' : EStateM.Result Interrupt (World σ) α} (h : EndsAkin alike Eq result result') :
    Ending.ofResult result = Ending.ofResult result' := by
  cases h with
  | ok => rfl
  | @error e =>
    cases e with
    | failed e => cases e <;> rfl
    | crashed => rfl

/-- A refresh in full of an item that is no artist does the same whether it is called directly
or queued with a queue that has nothing else to do, and it ends in the same way.  Called at the
moment at which the queue starts it, it leaves the same world.  Called when it is queued, it does
the same up to the stamps, if neither the collaborators nor the host depends on the time.

Both refresh the metadata of an artist by the same call too, but they differ in what they
validate around it: the direct call the artist's own children, the queue only album groupings. -/
theorem direct_as_queued (s : Session σ) (id : ItemId) (priority : Priority) {item : Item}
    {moment : Nat} (hready : s.Ready) (hlive : s.item? id = some item)
    (hdue : s.drainage.clock + s.throttle ≤ moment) :
    let request : Ticket := ⟨⟨id, .full, priority⟩, s.queue.accepted⟩
    let q := s.queueRefresh request.request
    let queued := q.advanceTo moment
    let now := { q.world with cancelled := false }
    let start := { q.world.later s.manager.host s.throttle with cancelled := false }
    let direct := s.manager.refreshInFull id now
    (q.call false (s.manager.refreshInFull id)).1.world = World.after direct ∧
      (item.kind ≠ .musicArtist →
        (s.manager.host.item? start.state id = some item →
          (∃ wait, queued.world =
            (World.after (s.manager.refreshInFull id start)).later s.manager.host wait) ∧
          queued.drainage.endings = s.drainage.endings ++
            [(request, .ofResult (s.manager.refreshInFull id start))]) ∧
        (∀ alike, s.manager.Timeless alike →
          (World.after direct).Akin alike queued.world ∧
          queued.drainage.endings = s.drainage.endings ++ [(request, .ofResult direct)])) ∧
      (item.kind = .musicArtist →
        (∃ wait, queued.world =
          (World.after (s.manager.refreshArtist item .full start)).later s.manager.host wait) ∧
        (∀ mid, s.manager.prepareArtist item .full start = .ok () mid → mid.cancelled = false →
          ∃ wait, queued.world =
            (World.after (during item (s.manager.refreshSingle item .full) mid)).later
              s.manager.host wait) ∧
        direct = during item (do
          let _ ← s.manager.refreshSingle item .full
          s.manager.validate item .full false) now ∧
        (∃ groupings,
          groupings <+: s.manager.groupings start.state (s.manager.albums item start) ∧
          validations queued.world.journal =
            validations q.world.journal ++ groupings.map fun folder => (folder, .full, true)) ∧
        validations (World.after direct).journal = validations q.world.journal ++
          if World.Returned (s.manager.refreshSingle item .full (startedOn item now)) then
            [(item, .full, false)] else []) := by
  intro request q queued now start direct
  have hdirect : direct = s.manager.refreshItem item .full now :=
    refreshInFull_apply s.manager hlive
  obtain ⟨⟨wait, hworld⟩, hendings⟩ := hready.serves_request (r := request.request) hlive hdue
  refine ⟨q.world_call false _, fun hkind => ⟨fun hstill => ?_, fun alike htimeless => ?_⟩,
    fun hkind => ?_⟩
  · rw [Manager.refreshQueued, if_neg hkind] at hworld hendings
    rw [refreshInFull_apply s.manager hstill]
    exact ⟨⟨wait, hworld⟩, hendings⟩
  · rw [Manager.refreshQueued, if_neg hkind] at hworld hendings
    have hworlds : now.Akin alike start :=
      ⟨htimeless.host.pass (htimeless.host.refl _) _, rfl, rfl, rfl⟩
    have hends : EndsAkin alike Eq direct (s.manager.refreshItem item .full start) := by
      rw [hdirect]
      exact (Manager.refreshItem_same htimeless item.lastRefreshed item .full).ends hworlds
    refine ⟨?_, ?_⟩
    · have hafter := hends.after
      exact hworld ▸ hafter.later (htimeless.host.pass hafter.state wait)
    · rw [ofResult_of_endsAkin hends]
      exact hendings
  · rw [Manager.refreshQueued, if_pos hkind] at hworld
    refine ⟨⟨wait, hworld⟩, fun mid hprepared hactive => ⟨wait, ?_⟩, ?_, ?_, ?_⟩
    · rw [← s.manager.after_refreshArtist item .full start hprepared hactive]
      exact hworld
    · rw [hdirect, s.manager.refreshItem_of_artist item .full hkind]
    · rw [hworld]
      exact s.manager.validations_refreshArtist item .full start
    · rw [hdirect]
      exact s.manager.validations_refreshItem_of_artist item .full now hkind

/-! ## A film and an artist -/

/-- A library with one film, outside of which nothing but a clock counts milliseconds. -/
def archive : Host Nat where
  item? _ id := if id = Traffic.drama.id then some Traffic.drama else none
  libraryOptions _ _ := .standard
  itemsMatching _ _ := []
  physicalFolders _ _ := []
  validateChildren _ _ _ w := ⟨[], .done, w.state, false⟩
  updateItem _ _ w := ⟨.ok (), w.state, false⟩
  saveImage _ _ _ _ w := ⟨.error (.of "read only"), w.state, false⟩
  httpGet _ w := ⟨.error (.of "no network"), w.state, false⟩
  now x := { Rehearsal.Stage.present with nanosecond := 1000000 * x }
  pass milliseconds x := x + milliseconds
  pass_zero _ := rfl
  pass_add a b x := (Nat.add_assoc x a b).symm

/-- A catalogue that knows when every film was made. -/
def almanac : MetadataProvider Nat where
  name := "Almanac"
  source := .remote
  order := 0
  handles _ := true
  fetch _ w := ⟨.ok { MetadataResult.empty with productionYear := some 1985 }, w.state, false⟩
  search := none

/-- A manager of the archive. -/
def archivist : Manager Nat where
  config := .standard
  providers := { ProviderSet.empty with metadataProviders := [almanac], services := [.generic] }
  host := archive

theorem archivist_timeless : archivist.Timeless fun _ _ => True where
  providers :=
    { fetch := fun p hp info => by
        obtain rfl := List.mem_singleton.mp hp
        exact ⟨fun _ _ => rfl, fun _ _ => rfl, fun _ _ => trivial⟩
      supports := by simp [archivist, ProviderSet.empty]
      types := by simp [archivist, ProviderSet.empty]
      listImages := by simp [archivist, ProviderSet.empty]
      generateImage := by simp [archivist, ProviderSet.empty]
      downloadImage := by simp [archivist, ProviderSet.empty]
      accepts := by simp [archivist, ProviderSet.empty]
      save := by simp [archivist, ProviderSet.empty]
      canRefresh := fun p hp item t => by
        obtain rfl := List.mem_singleton.mp hp
        rfl
      serve := fun p hp name refresh hwork => by
        obtain rfl := List.mem_singleton.mp hp
        cases hwork }
  host :=
    { refl := fun _ => trivial
      pass := fun _ _ => trivial
      libraryOptions := fun _ _ _ => rfl
      physicalFolders := fun _ _ _ => .nil
      validateChildren := fun _ _ _ _ => ⟨fun _ _ => rfl, fun _ _ => rfl, fun _ _ => trivial⟩
      updateItem := fun _ _ _ => ⟨fun _ _ => rfl, fun _ _ => rfl, fun _ _ => trivial⟩
      saveImage := fun _ _ _ _ _ => ⟨fun _ _ => rfl, fun _ _ => rfl, fun _ _ => trivial⟩ }

/-- A film that is refreshed at once, and through an idle queue. -/
theorem film_direct_as_queued :
    let s := fresh archivist 0
    let q := s.queueRefresh ⟨Traffic.drama.id, .full, .normal⟩
    let called := (q.call false (s.manager.refreshInFull Traffic.drama.id)).1
    s.Ready ∧ s.item? Traffic.drama.id = some Traffic.drama ∧
      s.drainage.clock + s.throttle ≤ 1000 ∧
      called.world.Akin (fun _ _ => True) (q.advanceTo 1000).world := by
  intro s q called
  have hready : s.Ready := ready_fresh _ _
  have hlive : s.item? Traffic.drama.id = some Traffic.drama := by decide +kernel
  have hdue : s.drainage.clock + s.throttle ≤ 1000 := by decide +kernel
  obtain ⟨hcall, hsame, -⟩ := direct_as_queued s Traffic.drama.id .normal hready hlive hdue
  obtain ⟨-, htimeless⟩ := hsame (by decide)
  refine ⟨hready, hlive, hdue, ?_⟩
  rw [hcall]
  exact (htimeless _ archivist_timeless).1

/-- An artist with nothing in the library by it. -/
def composer : Item := Item.bare .zero .musicArtist "Takemitsu"

open Rehearsal in
/-- A direct refresh of an artist validates the children of its folder, which the queue leaves
as they are.  A direct refresh of a film is persisted with a stamp of its own. -/
theorem artist_not_as_queued :
    (¬ ∀ (s : Session Stage) (id : ItemId) (priority : Priority) (item : Item) (moment : Nat),
      s.Ready → s.item? id = some item → s.drainage.clock + s.throttle ≤ moment →
        let q := s.queueRefresh ⟨id, .full, priority⟩
        validations (q.advanceTo moment).world.journal =
          validations (q.call false (s.manager.refreshInFull id)).1.world.journal) ∧
    ¬ ∀ (s : Session Nat) (id : ItemId) (priority : Priority) (item : Item) (moment : Nat),
      s.Ready → s.item? id = some item → s.drainage.clock + s.throttle ≤ moment →
        item.kind ≠ .musicArtist →
          let q := s.queueRefresh ⟨id, .full, priority⟩
          (q.advanceTo moment).world.calls =
            (q.call false (s.manager.refreshInFull id)).1.world.calls := by
  refine ⟨fun h => ?_, fun h => ?_⟩
  · let s := fresh (shelves damaged) { Manager.emptyStage with items := [composer] }
    have hlive : s.item? composer.id = some composer := by decide +kernel
    have hsame := h s composer.id .normal composer 100 (ready_fresh _ _) hlive (by decide +kernel)
    have hqueued : (validations ((s.queueRefresh ⟨composer.id, .full, .normal⟩).advanceTo
        100).world.journal).length = 0 := by decide +kernel
    have hcalled : (validations ((s.queueRefresh ⟨composer.id, .full, .normal⟩).call false
        (s.manager.refreshInFull composer.id)).1.world.journal).length = 1 := by decide +kernel
    rw [hsame, hcalled] at hqueued
    cases hqueued
  · let s := fresh archivist 0
    have hlive : s.item? Traffic.drama.id = some Traffic.drama := by decide +kernel
    have hsame := h s Traffic.drama.id .normal Traffic.drama 1000 (ready_fresh _ _) hlive
      (by decide +kernel) (by decide)
    exact absurd hsame (by decide +kernel)

end Session

end MediaRefresh
