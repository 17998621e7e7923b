import MediaRefresh.Proofs.Queue.Lookup

/-!
# Queue: when refreshes start

A refresh starts no sooner than the throttle after its request was accepted and after the end of
every refresh before it, and by then none is running.  Looking for the next request takes no
time: of what is pending when a refresh ends, the first request whose item exists is refreshed
exactly the throttle later, unless the task is late or the work is cancelled.
-/

set_option autoImplicit false

namespace MediaRefresh

open Drainage

namespace Drainage

variable {throttle : Nat} {as bs : List Act} {a : Act} {c d e f : Drainage} {i : Nat}
  {log : List (Nat × LogEntry)} {t : Ticket} {moment : Nat}

/-! ## When a refresh may start -/

/-- After what a log tells, the refresh of a ticket may start at a moment: its request was
accepted, every refresh that has started has ended, and all that was long enough ago. -/
structure MayStart (throttle : Nat) (log : List (Nat × LogEntry)) (t : Ticket)
    (moment : Nat) : Prop where
  accepted : ∃ v, (v, .accepted t) ∈ log ∧ v + throttle ≤ moment
  ended : ∀ v t' item, (v, .started t' item) ∈ log →
    ∃ w ending, (w, .finished t' ending) ∈ log
  rested : ∀ v t' ending, (v, .finished t' ending) ∈ log → v + throttle ≤ moment

/-- Every refresh in a log started when it might. -/
def Spaced (throttle : Nat) (log : List (Nat × LogEntry)) : Prop :=
  ∀ newer older moment t item, log = newer ++ (moment, .started t item) :: older →
    MayStart throttle older t moment

theorem MayStart.later {moment' : Nat} (h : MayStart throttle log t moment)
    (hlater : moment ≤ moment') : MayStart throttle log t moment' where
  accepted := by
    obtain ⟨v, hv, hago⟩ := h.accepted
    exact ⟨v, hv, Nat.le_trans hago hlater⟩
  ended := h.ended
  rested v t' ending hv := Nat.le_trans (h.rested v t' ending hv) hlater

/-- Lines that tell of no start and of no end change nothing. -/
theorem MayStart.cons {line : Nat × LogEntry} (h : MayStart throttle log t moment)
    (hstarted : line.2.started? = none) (hfinished : line.2.finished? = none) :
    MayStart throttle (line :: log) t moment where
  accepted := by
    obtain ⟨v, hv, hago⟩ := h.accepted
    exact ⟨v, List.mem_cons_of_mem _ hv, hago⟩
  ended v t' item hv := by
    obtain rfl | hv := List.mem_cons.mp hv
    · cases hstarted
    · obtain ⟨w, ending, hw⟩ := h.ended v t' item hv
      exact ⟨w, ending, List.mem_cons_of_mem _ hw⟩
  rested v t' ending hv := by
    obtain rfl | hv := List.mem_cons.mp hv
    · cases hfinished
    · exact h.rested v t' ending hv

theorem Spaced.cons {line : Nat × LogEntry} (h : Spaced throttle log)
    (hline : ∀ t item, line.2 = .started t item → MayStart throttle log t line.1) :
    Spaced throttle (line :: log) := by
  intro newer older moment t item hlog
  cases newer with
  | nil =>
    obtain ⟨rfl, rfl⟩ := List.cons.inj hlog
    exact hline t item rfl
  | cons head rest => exact h rest older moment t item (List.cons.inj hlog).2

/-- What is known of the times of a run: nothing in the log is yet to come, every refresh started
when it might, and a task that waits will. -/
structure Paced (throttle : Nat) (d : Drainage) : Prop where
  past : ∀ line ∈ d.log, line.1 ≤ d.clock
  spaced : Spaced throttle d.log
  waits : ∀ (i : Nat) t item wakeAt, d.tasks[i]? = some (.waiting t item wakeAt) →
    MayStart throttle d.log t wakeAt

theorem Step.keeps_past (hstep : Step throttle d a e) (h : ∀ line ∈ d.log, line.1 ≤ d.clock) :
    ∀ line ∈ e.log, line.1 ≤ e.clock := by
  cases hstep.logStep with
  | still hlog hforward =>
    rw [hlog]
    exact fun line hline => Nat.le_trans (h line hline) hforward
  | noted new hlog hclock =>
    rw [hlog, hclock]
    exact List.forall_mem_cons.mpr ⟨Nat.le_refl _, h⟩

/-- A request that a task holds may be refreshed the throttle from now. -/
theorem Paced.mayStart_of_holding (h : d.Paced throttle) (hexclusive : d.Exclusive)
    (hconserved : d.Conserved) (haccepted : d.accepted.Perm (d.queue.pending ++ d.popped))
    (ht : d.tasks[i]? = some (.holding t)) :
    MayStart throttle d.log t (d.clock + throttle) where
  accepted := by
    have hheld : t ∈ d.held := by
      have hheld : d.held = [t] := hexclusive.standing_eq rfl ht rfl
      simp [hheld]
    have hpopped : t ∈ d.popped :=
      hconserved.taken.mem_iff.mpr (List.mem_append_left _ hheld)
    have hmem : t ∈ d.accepted := haccepted.mem_iff.mpr (List.mem_append_right _ hpopped)
    obtain ⟨v, hline⟩ := mem_accepted.mp hmem
    exact ⟨v, hline, Nat.add_le_add_right (h.past _ hline) _⟩
  ended v t' item hv := by
    have hrunning : d.running = [] := hexclusive.standing_eq rfl ht rfl
    have hstarted : t' ∈ d.started := mem_started.mpr ⟨v, item, hv⟩
    have hfinished : t' ∈ d.finished := by
      simpa [hrunning] using hconserved.handed.mem_iff.mp hstarted
    exact mem_finished.mp hfinished
  rested v t' ending hv := Nat.add_le_add_right (h.past _ hv) _

theorem paced_idle : idle.Paced throttle where
  past := by simp [idle]
  spaced newer older moment t item hlog := by simp [idle] at hlog
  waits i t item wakeAt ht := by simp [idle] at ht

theorem Step.spaced (hstep : Step throttle d a e) (h : d.Paced throttle) :
    Spaced throttle e.log := by
  cases hstep with
  | wake i t item wakeAt ht hdue =>
    refine h.spaced.cons fun t' item' hline => ?_
    obtain ⟨rfl, -⟩ := LogEntry.started.inj hline
    exact (h.waits i t item wakeAt ht).later hdue
  | accept => exact h.spaced.cons fun _ _ hline => nomatch hline
  | start => exact h.spaced.cons fun _ _ hline => nomatch hline
  | pop => exact h.spaced.cons fun _ _ hline => nomatch hline
  | skip => exact h.spaced.cons fun _ _ hline => nomatch hline
  | abandon => exact h.spaced.cons fun _ _ hline => nomatch hline
  | finish => exact h.spaced.cons fun _ _ hline => nomatch hline
  | quit => exact h.spaced.cons fun _ _ hline => nomatch hline
  | _ => exact h.spaced

theorem Step.paced (hstep : Step throttle d a e) (hexclusive : d.Exclusive)
    (hconserved : d.Conserved) (haccepted : d.accepted.Perm (d.queue.pending ++ d.popped))
    (h : d.Paced throttle) : e.Paced throttle where
  past := hstep.keeps_past h.past
  spaced := hstep.spaced h
  waits i t item wakeAt ht := by
    obtain ⟨-, hheld, rfl, hlog⟩ | ⟨hwaits, hlog | ⟨u, hlog⟩⟩ :=
      hstep.comes_to_wait hexclusive ht
    · rw [hlog]
      exact h.mayStart_of_holding hexclusive hconserved haccepted hheld
    · rw [hlog]
      exact h.waits i t item wakeAt hwaits
    · rw [hlog]
      exact (h.waits i t item wakeAt hwaits).cons rfl rfl

theorem paced_of_run (hrun : idle.performAll throttle as = some d) : d.Paced throttle := by
  refine run_induction (fun _ d => d.Paced throttle) paced_idle (fun hmid ih hstep => ?_) hrun
  obtain ⟨hexclusive, hconserved⟩ := conserved_of_run hmid
  exact hstep.paced hexclusive hconserved (accepted_perm_of_run hmid) ih

/-! ## The search for the next request -/

/-- Since `d` the requests `passed` have been taken and skipped, then those in `hand`, and no
refresh has started. -/
structure SoFar (d e : Drainage) (passed hand : List Ticket) : Prop where
  popped : e.popped = d.popped ++ (passed ++ hand)
  skipped : ∀ u ∈ passed, u ∈ e.skipped
  started : e.started = d.started
  left : ∀ t ∈ d.queue.pending, t ∈ e.queue.pending ∨ t ∈ passed ++ hand

/-- The first refresh that has started since `d` is that of `t`, with `item` at the given moment,
and the requests that were taken before `t` were skipped. -/
structure ServesNext (d e : Drainage) (moment : Nat) (passed : List Ticket) (t : Ticket)
    (item : Item) : Prop where
  popped : d.popped ++ (passed ++ [t]) <+: e.popped
  skipped : ∀ u ∈ passed, u ∈ e.skipped
  started : d.started ++ [t] <+: e.started
  onTime : (moment, .started t item) ∈ e.log

/-- Where a task stands that goes on after the refresh that has ended in `d`. -/
inductive Onward (throttle : Nat) (d e : Drainage) : Prop where
  /-- it has yet to take a request -/
  | searching {i : Nat} {u : DrainTask} {passed : List Ticket} (now : e.tasks[i]? = some u)
      (early : u = .checking ∨ u = .taking) (clock : e.clock = d.clock)
      (soFar : SoFar d e passed [])
  /-- it has taken a request -/
  | holding {i : Nat} {t : Ticket} {passed : List Ticket} (now : e.tasks[i]? = some (.holding t))
      (clock : e.clock = d.clock) (soFar : SoFar d e passed [t])
  /-- it waits to refresh the first request whose item exists -/
  | waiting {i : Nat} {t : Ticket} {item : Item} {passed : List Ticket}
      (now : e.tasks[i]? = some (.waiting t item (d.clock + throttle)))
      (clock : e.clock ≤ d.clock + throttle) (soFar : SoFar d e passed [t])
  | served {t : Ticket} {item : Item} {passed : List Ticket}
      (serves : ServesNext d e (d.clock + throttle) passed t item)
  /-- there was no such request -/
  | ranDry (skipped : ∀ t ∈ d.queue.pending, t ∈ e.skipped)

/-- A step that takes, skips and starts nothing. -/
theorem SoFar.of_still {passed hand : List Ticket} (h : SoFar c d passed hand)
    (hpopped : e.popped = d.popped) (hskipped : e.skipped = d.skipped)
    (hstarted : e.started = d.started) (hpending : d.queue.pending ⊆ e.queue.pending) :
    SoFar c e passed hand where
  popped := hpopped.trans h.popped
  skipped := hskipped ▸ h.skipped
  started := hstarted.trans h.started
  left t ht := (h.left t ht).imp_left fun hleft => hpending hleft

theorem Step.servesNext {passed : List Ticket} {item : Item} (hstep : Step throttle d a e)
    (h : ServesNext c d moment passed t item) : ServesNext c e moment passed t item where
  popped := h.popped.trans ((hstep.told_prefix _).map _)
  skipped u hu := (hstep.told_prefix _).subset (h.skipped u hu)
  started := h.started.trans (hstep.told_prefix _)
  onTime := hstep.log_suffix.subset h.onTime

/-- What the step of another party leaves as it is while a task stands at `u`.  Time passes no
further than the task lets it. -/
structure LeftAlone (d e : Drainage) (u : DrainTask) : Prop where
  tasks : e.tasks = d.tasks
  popped : e.popped = d.popped
  skipped : e.skipped = d.skipped
  started : e.started = d.started
  pending : d.queue.pending ⊆ e.queue.pending
  clock : e.clock = d.clock ∨ d.allows e.clock u = true

theorem Step.leftAlone {u : DrainTask} (hstep : Step throttle d a e) (hexclusive : d.Exclusive)
    (hu : d.tasks[i]? = some u) (hlive : u.live = true) (hmove : ∀ m, a ≠ .move i m)
    (hstall : ∀ moment, a ≠ .stall moment) : LeftAlone d e u := by
  cases a with
  | enqueue r inRuntime =>
    cases hstep with
    | refuse => exact ⟨rfl, rfl, rfl, rfl, List.Subset.refl _, Or.inl rfl⟩
    | accept =>
      exact ⟨rfl, by simp [popped], by simp, by simp, List.subset_append_left _ _, Or.inl rfl⟩
    | start _ _ hidle =>
      rw [(hexclusive.of_live hu hlive).1] at hidle
      cases hidle
  | cancel =>
    cases hstep
    exact ⟨rfl, rfl, rfl, rfl, List.Subset.refl _, Or.inl rfl⟩
  | shutdown =>
    cases hstep
    exact ⟨rfl, rfl, rfl, rfl, List.Subset.refl _, Or.inl rfl⟩
  | elapse moment =>
    cases hstep with
    | elapse _ _ hallowed =>
      exact ⟨rfl, rfl, rfl, rfl, List.Subset.refl _,
        Or.inr (hallowed u (List.mem_of_getElem? hu))⟩
  | stall moment => exact absurd rfl (hstall moment)
  | move j m =>
    obtain ⟨v, hv, hlive'⟩ := hstep.live_of_move
    obtain ⟨rfl, -⟩ := hexclusive.live_unique hv hlive' hu hlive
    exact absurd rfl (hmove m)

theorem SoFar.of_leftAlone {passed hand : List Ticket} {u : DrainTask}
    (h : SoFar c d passed hand) (halone : LeftAlone d e u) : SoFar c e passed hand :=
  h.of_still halone.popped halone.skipped halone.started halone.pending

/-- A task takes the request that is served first. -/
theorem SoFar.take {passed rest : List Ticket} (h : SoFar c d passed [])
    (hfirst : Ticket.takeFirst d.queue.pending = some (t, rest)) :
    SoFar c (((d.note (.taken i t)).withQueue { d.queue with pending := rest }).setTask i
      (.holding t)) passed [t] where
  popped := by
    have hpopped := h.popped
    simp only [Drainage.popped, List.append_nil] at hpopped ⊢
    simp [hpopped]
  skipped u hu := by simpa using h.skipped u hu
  started := by simpa using h.started
  left u hu := by
    rw [List.mem_append, List.mem_singleton]
    obtain hpending | hpassed := h.left u hu
    · obtain rfl | hrest := List.mem_cons.mp ((Ticket.takeFirst_perm hfirst).subset hpending)
      · exact Or.inr (Or.inr rfl)
      · exact Or.inl hrest
    · exact Or.inr (Or.inl (by simpa using hpassed))

/-- A task passes over the request in hand. -/
theorem SoFar.skip {passed : List Ticket} (h : SoFar c d passed [t]) :
    SoFar c ((d.note (.skipped t)).setTask i .checking) (passed ++ [t]) [] where
  popped := by simpa [Drainage.popped] using h.popped
  skipped u hu := by
    obtain hu | hu := List.mem_append.mp hu
    · simp [h.skipped u hu]
    · simp [List.mem_singleton.mp hu]
  started := by simpa using h.started
  left u hu := by simpa using h.left u hu

/-- A task starts the refresh of the request in hand. -/
theorem SoFar.start {passed : List Ticket} (h : SoFar c d passed [t]) (item : Item) :
    ServesNext c ((d.note (.started t item)).setTask i (.refreshing t item)) d.clock passed t
      item where
  popped := by
    rw [← h.popped]
    simp [Drainage.popped]
  skipped u hu := by simpa using h.skipped u hu
  started := by simp [h.started]
  onTime := List.mem_cons_self

/-- A task that finds the queue empty has passed over all that was pending. -/
theorem SoFar.ranDry {passed : List Ticket} (h : SoFar c d passed [])
    (hempty : d.queue.pending = []) : ∀ t ∈ c.queue.pending, t ∈ d.skipped := by
  intro t ht
  obtain hpending | hpassed := h.left t ht
  · simp [hempty] at hpending
  · exact h.skipped t (by simpa using hpassed)

/-- A task that has something to do at once lets no time pass. -/
theorem LeftAlone.clock_eq {u : DrainTask} (h : LeftAlone d e u)
    (hbusy : d.allows e.clock u = false) : e.clock = d.clock :=
  h.clock.resolve_right (by simp [hbusy])

/-- By the position of the task: a move of its own takes it on, and while it has something to do
at once others let no time pass. -/
theorem Step.onward (hstep : Step throttle d a e) (hexclusive : d.Exclusive)
    (hstall : ∀ moment, a ≠ .stall moment) (hactive : e.queue.cancelled = false)
    (h : Onward throttle c d) : Onward throttle c e := by
  have hbefore := hstep.active_before hactive
  cases h with
  | @searching i u passed hnow hearly hclock hsoFar =>
    by_cases hmove : ∃ m, a = .move i m
    · obtain ⟨m, rfl⟩ := hmove
      obtain rfl | rfl := hearly
      · obtain ⟨hcancelled, -⟩ | ⟨-, rfl⟩ := hstep.of_checking hnow
        · simp [hcancelled] at hbefore
        · have hsame : SoFar c (d.setTask i .taking) passed [] :=
            hsoFar.of_still rfl rfl rfl (List.Subset.refl _)
          exact .searching (task_set hnow _) (Or.inr rfl) hclock hsame
      · obtain ⟨t, rest, hfirst, rfl⟩ | ⟨hempty, rfl⟩ := hstep.of_taking hnow
        · exact .holding (task_set hnow _) hclock (hsoFar.take hfirst)
        · exact .ranDry (hsoFar.ranDry hempty)
    · have hlive : u.live = true := by
        obtain rfl | rfl := hearly <;> rfl
      have halone := hstep.leftAlone hexclusive hnow hlive (fun m hm => hmove ⟨m, hm⟩) hstall
      have hsame : e.clock = d.clock := halone.clock_eq (by obtain rfl | rfl := hearly <;> rfl)
      exact .searching (halone.tasks ▸ hnow) hearly (hsame.trans hclock)
        (hsoFar.of_leftAlone halone)
  | @holding i t passed hnow hclock hsoFar =>
    by_cases hmove : ∃ m, a = .move i m
    · obtain ⟨m, rfl⟩ := hmove
      obtain ⟨item, rfl⟩ | rfl := hstep.of_holding hnow
      · have hsame : SoFar c (d.setTask i (.waiting t item (d.clock + throttle))) passed [t] :=
          hsoFar.of_still rfl rfl rfl (List.Subset.refl _)
        have hwaits : (d.setTask i (.waiting t item (d.clock + throttle))).tasks[i]? =
            some (.waiting t item (c.clock + throttle)) := by
          rw [← hclock]
          exact task_set hnow _
        exact .waiting hwaits (by simp [hclock]) hsame
      · exact .searching (task_set hnow _) (Or.inl rfl) hclock hsoFar.skip
    · have halone := hstep.leftAlone hexclusive hnow rfl (fun m hm => hmove ⟨m, hm⟩) hstall
      exact .holding (halone.tasks ▸ hnow) ((halone.clock_eq rfl).trans hclock)
        (hsoFar.of_leftAlone halone)
  | @waiting i t item passed hnow hclock hsoFar =>
    by_cases hmove : ∃ m, a = .move i m
    · obtain ⟨m, rfl⟩ := hmove
      obtain ⟨hdue, rfl⟩ | ⟨hcancelled, -⟩ := hstep.of_waiting hnow
      · have hexact : d.clock = c.clock + throttle := Nat.le_antisymm hclock hdue
        exact .served (hexact ▸ hsoFar.start item)
      · simp [hcancelled] at hbefore
    · have halone := hstep.leftAlone hexclusive hnow rfl (fun m hm => hmove ⟨m, hm⟩) hstall
      have hclock' : e.clock ≤ c.clock + throttle := by
        obtain hsame | hallowed := halone.clock
        · exact hsame ▸ hclock
        · simpa [allows, hbefore] using hallowed
      exact .waiting (halone.tasks ▸ hnow) hclock' (hsoFar.of_leftAlone halone)
  | served hserves => exact .served (hstep.servesNext hserves)
  | ranDry hskipped => exact .ranDry fun t ht => (hstep.told_prefix _).subset (hskipped t ht)

/-- Nothing has happened yet. -/
theorem SoFar.refl (d : Drainage) : SoFar d d [] [] where
  popped := by simp
  skipped u hu := by simp at hu
  started := rfl
  left t ht := Or.inl ht

theorem onward_of_run (hexclusive : d.Exclusive) (hchecking : d.tasks[i]? = some .checking)
    (hrun : d.performAll throttle bs = some e) (hstall : ∀ moment, .stall moment ∉ bs)
    (hactive : e.queue.cancelled = false) : Onward throttle d e := by
  have hall : e.Exclusive ∧
      ((∀ moment, .stall moment ∉ bs) → e.queue.cancelled = false → Onward throttle d e) := by
    refine run_induction
      (fun bs e => e.Exclusive ∧
        ((∀ moment, .stall moment ∉ bs) → e.queue.cancelled = false → Onward throttle d e))
      ⟨hexclusive, fun _ _ => .searching hchecking (Or.inl rfl) rfl (.refl d)⟩
      (fun {bs e f a} _ ih hstep => ?_) hrun
    refine ⟨hstep.exclusive ih.1, fun hstall hactive => ?_⟩
    have hbefore := hstep.active_before hactive
    have hstall' : ∀ moment, .stall moment ∉ bs := fun moment hmem =>
      hstall moment (List.mem_append_left _ hmem)
    exact hstep.onward ih.1 (fun moment ha => hstall moment (by simp [ha])) hactive
      (ih.2 hstall' hbefore)
  exact hall.2 hstall hactive

/-! ## The next request can be served -/

/-- Time can pass up to the moment for which a task waits. -/
theorem Exclusive.perform_elapse {item : Item} {wakeAt : Nat} (h : d.Exclusive)
    (hnow : d.tasks[i]? = some (.waiting t item wakeAt)) (hactive : d.queue.cancelled = false)
    (hclock : d.clock ≤ wakeAt) :
    d.perform throttle (.elapse wakeAt) = some (d.atMoment wakeAt) := by
  have hallowed : d.tasks.all (d.allows wakeAt) = true := by
    rw [(h.of_live hnow rfl).2, List.all_append, List.all_replicate]
    simp [allows, hactive]
  simp [perform, hclock, hallowed]

variable (throttle) in
/-- A task that finds the item of the request in hand can start its refresh the throttle later. -/
theorem SoFar.can_start {passed : List Ticket} (h : SoFar c d passed [t]) (item : Item)
    (hexclusive : d.Exclusive) (hnow : d.tasks[i]? = some (.holding t))
    (hactive : d.queue.cancelled = false) :
    ∃ e, d.performAll throttle [.move i (.resolve (some item)), .elapse (d.clock + throttle),
        .move i .wake] = some e ∧ ServesNext c e (d.clock + throttle) passed t item := by
  let waits := d.setTask i (.waiting t item (d.clock + throttle))
  have hresolve : d.perform throttle (.move i (.resolve (some item))) = some waits :=
    perform_move_of_eq hnow _
  have helapse : waits.perform throttle (.elapse (d.clock + throttle)) =
      some (waits.atMoment (d.clock + throttle)) :=
    ((step_of_perform hresolve).exclusive hexclusive).perform_elapse (task_set hnow _) hactive
      (Nat.le_add_right _ _)
  have hwake : (waits.atMoment (d.clock + throttle)).perform throttle (.move i .wake) =
      some (((waits.atMoment (d.clock + throttle)).note (.started t item)).setTask i
        (.refreshing t item)) := by
    rw [perform_move_of_eq (task_set hnow _)]
    simp [moveTask]
  have hsoFar : SoFar c (waits.atMoment (d.clock + throttle)) passed [t] :=
    h.of_still rfl rfl rfl (List.Subset.refl _)
  refine ⟨_, ?_, hsoFar.start (i := i) item⟩
  rw [performAll_cons_of_eq hresolve, performAll_cons_of_eq helapse, performAll_cons_of_eq hwake]
  rfl

variable (throttle) in
/-- A task at the beginning of its loop can take the request that is served first. -/
theorem SoFar.can_take {passed rest : List Ticket} (h : SoFar c d passed [])
    (hnow : d.tasks[i]? = some .checking) (hactive : d.queue.cancelled = false)
    (hfirst : Ticket.takeFirst d.queue.pending = some (t, rest)) :
    ∃ e, d.performAll throttle [.move i .check, .move i .take] = some e ∧
      e.tasks[i]? = some (.holding t) ∧ e.queue = { d.queue with pending := rest } ∧
      e.clock = d.clock ∧ SoFar c e passed [t] := by
  have htaking : (d.setTask i .taking).tasks[i]? = some .taking := task_set hnow _
  have hcheck : d.perform throttle (.move i .check) = some (d.setTask i .taking) := by
    rw [perform_move_of_eq hnow]
    simp [moveTask, hactive]
  let holds := (((d.setTask i .taking).note (.taken i t)).withQueue
    { d.queue with pending := rest }).setTask i (.holding t)
  have htake : (d.setTask i .taking).perform throttle (.move i .take) = some holds := by
    rw [perform_move_of_eq htaking]
    simp [moveTask, RefreshQueue.pop?, hfirst, holds]
  have hsoFar : SoFar c (d.setTask i .taking) passed [] :=
    h.of_still rfl rfl rfl (List.Subset.refl _)
  refine ⟨holds, ?_, ?_, rfl, rfl, hsoFar.take hfirst⟩
  · rw [performAll_cons_of_eq hcheck, performAll_cons_of_eq htake]
    rfl
  · exact task_set htaking _

/-- By induction on the pending requests: whatever the library holds, a task at the beginning of
its loop can go on to the first of them whose item is found. -/
theorem SoFar.can_serve {passed : List Ticket} (find : ItemId → Option Item)
    (h : SoFar c d passed []) (hexclusive : d.Exclusive) (hnow : d.tasks[i]? = some .checking)
    (hactive : d.queue.cancelled = false) (hclock : d.clock = c.clock)
    (hpassed : ∀ u ∈ passed, find u.request.item = none)
    (hfound : ∃ t ∈ d.queue.pending, (find t.request.item).isSome) :
    ∃ bs e passed t item, d.performAll throttle bs = some e ∧
      (∀ moment, .stall moment ∉ bs) ∧ (∀ u ∈ passed, find u.request.item = none) ∧
      find t.request.item = some item ∧ ServesNext c e (c.clock + throttle) passed t item := by
  induction hlength : d.queue.pending.length generalizing d passed with
  | zero =>
    obtain ⟨t, ht, -⟩ := hfound
    simp [List.length_eq_zero_iff.mp hlength] at ht
  | succ n ih =>
    obtain ⟨t, rest, hfirst⟩ : ∃ t rest, Ticket.takeFirst d.queue.pending = some (t, rest) := by
      cases hfirst : Ticket.takeFirst d.queue.pending with
      | none => simp [Ticket.takeFirst_eq_none_iff.mp hfirst] at hlength
      | some found => exact ⟨found.1, found.2, rfl⟩
    obtain ⟨e, htake, hholding, hqueue, hsame, hsoFar⟩ := h.can_take throttle hnow
      hactive hfirst
    have hexclusive' : e.Exclusive := run_induction (fun _ e => e.Exclusive) hexclusive
      (fun _ ih hstep => hstep.exclusive ih) htake
    have hactive' : e.queue.cancelled = false := by rw [hqueue, ← hactive]
    cases hitem : find t.request.item with
    | some item =>
      obtain ⟨f, hstart, hserves⟩ := hsoFar.can_start throttle item hexclusive'
        hholding hactive'
      refine ⟨[.move i .check, .move i .take] ++ [.move i (.resolve (some item)),
        .elapse (e.clock + throttle), .move i .wake], f, passed, t, item, ?_, ?_, hpassed, hitem,
        ?_⟩
      · rw [performAll_append, htake, Option.bind_some, hstart]
      · simp
      · rwa [hsame, hclock] at hserves
    | none =>
      have hskip : e.perform throttle (.move i (.resolve none)) =
          some ((e.note (.skipped t)).setTask i .checking) := perform_move_of_eq hholding _
      have hpassed' : ∀ u ∈ passed ++ [t], find u.request.item = none := by
        intro u hu
        obtain hu | hu := List.mem_append.mp hu
        · exact hpassed u hu
        · rw [List.mem_singleton.mp hu, hitem]
      have hfound' : ∃ u ∈ e.queue.pending, (find u.request.item).isSome := by
        obtain ⟨u, hu, hsome⟩ := hfound
        obtain rfl | hrest := List.mem_cons.mp ((Ticket.takeFirst_perm hfirst).subset hu)
        · simp [hitem] at hsome
        · exact ⟨u, by rwa [hqueue], hsome⟩
      have hshorter : e.queue.pending.length = n := by
        have hlength' := (Ticket.takeFirst_perm hfirst).length_eq
        rw [hqueue]
        simpa [hlength] using hlength'.symm
      obtain ⟨bs, f, passed', t', item', hrest, hstall, hnone, hitem', hserves⟩ :=
        ih hsoFar.skip ((step_of_perform hskip).exclusive hexclusive')
          (task_set hholding _) hactive'
          (hsame.trans hclock) hpassed' hfound' hshorter
      refine ⟨[.move i .check, .move i .take] ++ .move i (.resolve none) :: bs, f, passed', t',
        item', ?_, by simpa using hstall, hnone, hitem', hserves⟩
      rw [performAll_append, htake, Option.bind_some, performAll_cons_of_eq hskip, hrest]

/-! ## The pace of a run -/

/-- In every run at most one refresh is running.  Each starts no sooner than the throttle after
its request was accepted and after the end of every one before it.  After a refresh that does not
stop the task, and as long as no task is late and the work is not cancelled, with a request
pending that is not skipped, no time beyond the throttle passes before the next refresh: it
starts at that very moment, and is that of the first request that is not skipped.  The run can
go on to it whatever the library holds, if that is the item of a pending request. -/
theorem refreshes_keep_pace {throttle : Nat} {as : List Act} {d : Drainage}
    (hrun : idle.performAll throttle as = some d) :
    d.running.length ≤ 1 ∧
    (∀ newer older moment t item, d.log = newer ++ (moment, .started t item) :: older →
      MayStart throttle older t moment) ∧
    ∀ i ending e, d.perform throttle (.move i (.finish ending)) = some e → ending ≠ .cancelled →
      (∀ bs f, e.performAll throttle bs = some f → (∀ moment, .stall moment ∉ bs) →
        f.queue.cancelled = false → (∃ t ∈ e.queue.pending, t ∉ f.skipped) →
          (f.clock ≤ e.clock + throttle ∧ f.started = e.started) ∨
            ∃ passed t item, ServesNext e f (e.clock + throttle) passed t item) ∧
      ∀ find : ItemId → Option Item, e.queue.cancelled = false →
        (∃ t ∈ e.queue.pending, (find t.request.item).isSome) →
          ∃ bs f passed t item, e.performAll throttle bs = some f ∧
            (∀ moment, .stall moment ∉ bs) ∧ (∀ u ∈ passed, find u.request.item = none) ∧
            find t.request.item = some item ∧
            ServesNext e f (e.clock + throttle) passed t item := by
  obtain ⟨hexclusive, -⟩ := conserved_of_run hrun
  refine ⟨?_, (paced_of_run hrun).spaced, fun i ending e hfinish hgoesOn => ?_⟩
  · exact Nat.le_trans (running_sublist_held d).length_le hexclusive.held_length_le
  have hstep := step_of_perform hfinish
  have hchecking : e.tasks[i]? = some .checking := by
    cases hstep with
    | finish _ t item _ ht => exact task_set ht _
    | quit => exact absurd rfl hgoesOn
  refine ⟨fun bs f hlater hstall hactive hresolvable => ?_, fun find hactive hfound => ?_⟩
  · cases onward_of_run (hstep.exclusive hexclusive) hchecking hlater hstall hactive with
    | searching _ _ hclock hsoFar => exact Or.inl ⟨by omega, hsoFar.started⟩
    | holding _ hclock hsoFar => exact Or.inl ⟨by omega, hsoFar.started⟩
    | waiting _ hclock hsoFar => exact Or.inl ⟨hclock, hsoFar.started⟩
    | served hserves => exact Or.inr ⟨_, _, _, hserves⟩
    | ranDry hskipped =>
      obtain ⟨t, ht, hnot⟩ := hresolvable
      exact absurd (hskipped t ht) hnot
  · exact (SoFar.refl e).can_serve find (hstep.exclusive hexclusive) hchecking hactive rfl
      (by simp) hfound

/-- A run up to the end of a refresh, at 150, with two more requests pending. -/
def busyRun : List Act :=
  let request : RefreshRequest := ⟨.zero, .standard, .normal⟩
  [.enqueue request true, .enqueue request true, .enqueue request true, .move 0 .check,
    .move 0 .take, .move 0 (.resolve (some (.bare .zero .movie "Alien"))), .elapse 100,
    .move 0 .wake, .elapse 150]

/-- The item of the next request is gone, that of the one behind it is there. -/
def passingRun : List Act :=
  [.move 0 .check, .move 0 .take, .move 0 (.resolve none), .move 0 .check, .move 0 .take,
    .move 0 (.resolve (some (.bare .zero .movie "Alien"))), .elapse 250, .move 0 .wake]

theorem passingRun_on_time :
    ∃ d e f, idle.performAll 100 busyRun = some d ∧
      d.perform 100 (.move 0 (.finish .failed)) = some e ∧
      e.performAll 100 passingRun = some f ∧ f.queue.cancelled = false ∧
      (∃ t ∈ e.queue.pending, t ∉ f.skipped) ∧ f.started.length = 2 ∧
      ∃ passed t item, ServesNext e f 250 passed t item := by
  have hpace := @refreshes_keep_pace 100 busyRun _ rfl
  obtain ⟨-, -, hends⟩ := hpace
  obtain ⟨honward, -⟩ := hends 0 .failed _ rfl (by decide)
  have hwaiting := honward passingRun _ rfl (by simp [passingRun]) rfl (by decide)
  refine ⟨_, _, _, rfl, rfl, rfl, rfl, by decide, rfl, ?_⟩
  obtain ⟨-, hnone⟩ | ⟨passed, t, item, hserves⟩ := hwaiting
  · cases hnone
  · exact ⟨passed, t, item, hserves⟩

end Drainage

end MediaRefresh
