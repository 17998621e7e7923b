import MediaRefresh.Proofs.Queue.Lookup
import MediaRefresh.Proofs.Refresh.Leftovers

/-!
# Sessions: runs

A run of a session is a sequence of acts: of hosts that queue refreshes, call the manager or
stop the queue, of the outside, of the drain task and of time.  `Effect` lists what an act can
do to the queue, and `effect` says that the list is complete.  To queue a refresh is two acts,
between which others may come.  Letting time pass up to a moment is a run of turns of the drain
task.
-/

set_option autoImplicit false

namespace MediaRefresh

variable {σ ω : Type}

/-- Something that happens to a session. -/
inductive SessionAct (σ : Type) where
  /-- a host announces that it queues a refresh -/
  | announce (r : RefreshRequest)
  /-- a host hands a request to the queue, from inside a runtime or not -/
  | enqueue (r : RefreshRequest) (inRuntime : Bool)
  /-- the queue is shut down -/
  | shutdown
  /-- the cancellation of the queue fires -/
  | cancel
  /-- the manager is called directly, with a cancellation that may have fired -/
  | call (cancelled : Bool) (c : RefreshCall)
  /-- the outside changes -/
  | change (f : σ → σ)
  /-- the drain task does what it does next, if that is due by a moment -/
  | turn (moment : Nat)
  /-- time passes as far as the drain task lets it -/
  | elapse (moment : Nat)
  /-- time passes whatever the drain task has to do -/
  | stall (moment : Nat)

/-- The request that an act announces as queued. -/
def SessionAct.announced? : SessionAct σ → Option RefreshRequest
  | announce r => some r
  | _ => none

/-- The request that an act hands to the queue. -/
def SessionAct.request? : SessionAct σ → Option RefreshRequest
  | enqueue r _ => some r
  | _ => none

/-- Whether an act shuts the queue down. -/
def SessionAct.isShutdown : SessionAct σ → Bool
  | shutdown => true
  | _ => false

namespace Session

/-- The queue of the session with its tasks, the time and the log. -/
def drainage (s : Session σ) : Drainage := s.shift.drainage

/-- The live item of an identifier. -/
def item? (s : Session σ) (id : ItemId) : Option Item := s.manager.host.item? s.world.state id

/-- A step of the queue, if it is possible. -/
def act (s : Session σ) (a : Act) : Session σ := { s with shift := s.shift.act s.throttle a }

/-- A step of the queue by which time passes. -/
def lapse (s : Session σ) (a : Act) : Session σ :=
  { s with shift := s.shift.lapse s.throttle s.manager.worker a }

/-- The session after an act. -/
def perform (s : Session σ) : SessionAct σ → Session σ
  | .announce r => s.announceQueued r
  | .enqueue r inRuntime => s.enqueue r inRuntime
  | .shutdown => s.shutdown
  | .cancel => s.act .cancel
  | .call cancelled c => (s.call cancelled (s.manager.carryOut c)).1
  | .change f => s.modifyState f
  | .turn moment =>
    { s with shift := (s.shift.next? s.throttle s.manager.worker moment).getD s.shift }
  | .elapse moment => s.lapse (.elapse moment)
  | .stall moment => s.lapse (.stall moment)

/-- The session after a sequence of acts. -/
def performAll (s : Session σ) (as : List (SessionAct σ)) : Session σ := as.foldl perform s

/-- The look at the library that an act takes: the drain task has taken a request and looks up
its item. -/
def lookup? (s : Session σ) : SessionAct σ → Option Lookup
  | .turn _ =>
    match s.drainage.current? with
    | some (_, .holding t) => some ⟨s.drainage.clock, t, s.item? t.request.item⟩
    | _ => none
  | _ => none

/-- The looks at the library that a run takes, in order. -/
def lookups (s : Session σ) : List (SessionAct σ) → List Lookup
  | [] => []
  | a :: rest => (s.lookup? a).toList ++ (s.perform a).lookups rest

end Session

/-! ## What an act does to the queue -/

/-- Steps that enqueue nothing, look nothing up and do not shut the queue down. -/
def Act.silent : Act → Bool
  | .enqueue .. => false
  | .shutdown => false
  | .move _ (.resolve _) => false
  | _ => true

/-- One state of a queue leads to another by silent steps. -/
inductive Drainage.Passes (throttle : Nat) : Drainage → Drainage → Prop where
  | refl (d : Drainage) : Passes throttle d d
  | step {d e f : Drainage} {a : Act} (first : d.perform throttle a = some e)
      (silent : a.silent = true) (later : Passes throttle e f) : Passes throttle d f

theorem Drainage.Passes.trans {throttle : Nat} {d e f : Drainage} (h : d.Passes throttle e)
    (hlater : e.Passes throttle f) : d.Passes throttle f := by
  induction h with
  | refl => exact hlater
  | step first silent _ ih => exact .step first silent (ih hlater)

theorem Drainage.Passes.run {throttle : Nat} {d e : Drainage} (h : d.Passes throttle e) :
    ∃ bs, d.performAll throttle bs = some e := by
  induction h with
  | refl => exact ⟨[], rfl⟩
  | @step d e f a first _ _ ih =>
    obtain ⟨bs, hbs⟩ := ih
    exact ⟨a :: bs, (performAll_cons_of_eq first bs).trans hbs⟩

namespace Shift

variable {throttle : Nat} {a : Act} {s : Shift ω}

theorem passes_act (s : Shift ω) (h : a.silent = true) :
    s.drainage.Passes throttle (s.act throttle a).drainage := by
  cases hperform : s.drainage.perform throttle a with
  | none =>
    rw [act, hperform]
    exact .refl _
  | some e =>
    rw [act, hperform]
    exact .step hperform h (.refl _)

theorem passes_cancel_if (s : Shift ω) (cancels : Bool) :
    s.drainage.Passes throttle (if cancels then s.act throttle .cancel else s).drainage := by
  cases cancels with
  | true => exact s.passes_act rfl
  | false => exact .refl _

theorem drainage_act_of_perform {e : Drainage} (h : s.drainage.perform throttle a = some e) :
    (s.act throttle a).drainage = e := by
  rw [act, h]
  rfl

end Shift

/-- What an act of a session can do to its queue. -/
inductive Session.Effect (s : Session σ) : SessionAct σ → Drainage → Prop where
  | asked {e : Drainage} (r : RefreshRequest) (inRuntime : Bool)
      (step : s.drainage.perform s.throttle (.enqueue r inRuntime) = some e) :
      Effect s (.enqueue r inRuntime) e
  | closed {e : Drainage} (step : s.drainage.perform s.throttle .shutdown = some e) :
      Effect s .shutdown e
  /-- the drain task looks up the item of the request that it has taken -/
  | lookedUp {e : Drainage} {i moment : Nat} {t : Ticket}
      (current : s.drainage.current? = some (i, .holding t))
      (step : s.drainage.perform s.throttle (.move i (.resolve (s.item? t.request.item))) =
        some e) : Effect s (.turn moment) e
  | silent {a : SessionAct σ} {e : Drainage} (asks : a.request? = none)
      (closes : a.isShutdown = false) (looks : s.lookup? a = none)
      (passes : s.drainage.Passes s.throttle e) : Effect s a e

namespace Session

variable {s : Session σ} {i moment : Nat} {t : Ticket}

@[simp] theorem drainage_call {α : Type} (s : Session σ) (cancelled : Bool) (x : RefreshM σ α) :
    (s.call cancelled x).1.drainage = s.drainage := by
  unfold call
  split <;> rfl

@[simp] theorem manager_call {α : Type} (s : Session σ) (cancelled : Bool) (x : RefreshM σ α) :
    (s.call cancelled x).1.manager = s.manager := by
  unfold call
  split <;> rfl

theorem world_call {α : Type} (s : Session σ) (cancelled : Bool) (x : RefreshM σ α) :
    (s.call cancelled x).1.world = World.after (x { s.world with cancelled := cancelled }) := by
  unfold call
  split <;> simp only [World.after, *] <;> rfl

theorem perform_turn_of_some {next : Shift (World σ)}
    (h : s.shift.next? s.throttle s.manager.worker moment = some next) :
    (s.perform (.turn moment)).drainage = next.drainage := by
  simp only [perform, drainage, h, Option.getD_some]

theorem perform_turn_of_none
    (h : s.shift.next? s.throttle s.manager.worker moment = none) :
    (s.perform (.turn moment)).drainage = s.drainage := by
  simp only [perform, drainage, h, Option.getD_none]

/-- A task that waits goes on to its refresh when that is due, or gives up. -/
theorem passes_of_waiting {item : Item} {wakeAt : Nat}
    (hcurrent : s.drainage.current? = some (i, .waiting t item wakeAt)) :
    s.drainage.Passes s.throttle (s.perform (.turn moment)).drainage := by
  cases hnext : s.shift.next? s.throttle s.manager.worker moment with
  | none =>
    rw [perform_turn_of_none hnext]
    exact .refl _
  | some next =>
    rw [perform_turn_of_some hnext]
    rw [Shift.next?, show s.shift.drainage.current? = _ from hcurrent] at hnext
    dsimp only at hnext
    split at hnext
    · obtain rfl := Option.some.inj hnext
      exact s.shift.passes_act rfl
    · split at hnext
      · obtain rfl := Option.some.inj hnext
        exact (s.shift.passes_act rfl).trans (Shift.passes_act _ rfl)
      · cases hnext

/-- A refresh ends after some time, and may have cancelled the queue. -/
theorem passes_of_refreshing {item : Item}
    (hcurrent : s.drainage.current? = some (i, .refreshing t item)) :
    s.drainage.Passes s.throttle (s.perform (.turn moment)).drainage := by
  cases hnext : s.shift.next? s.throttle s.manager.worker moment with
  | none =>
    rw [perform_turn_of_none hnext]
    exact .refl _
  | some next =>
    rw [perform_turn_of_some hnext]
    rw [Shift.next?, show s.shift.drainage.current? = _ from hcurrent] at hnext
    dsimp only at hnext
    split at hnext
    · let timed := s.shift.lapse s.throttle s.manager.worker
        (.elapse (max s.drainage.clock s.shift.busyUntil))
      let result := s.manager.refreshQueued item t.request.options
        { timed.work with cancelled := timed.drainage.queue.cancelled }
      let ended : Shift (World σ) := { timed with work := World.after result }
      have hended : next = Shift.act s.throttle
          (if ended.work.cancelled then ended.act s.throttle .cancel else ended)
          (.move i (.finish (.ofResult result))) := (Option.some.inj hnext).symm
      have htimed : s.drainage.Passes s.throttle ended.drainage := s.shift.passes_act rfl
      rw [hended]
      exact (htimed.trans (ended.passes_cancel_if _)).trans (Shift.passes_act _ rfl)
    · cases hnext

theorem effect_turn (s : Session σ) (moment : Nat) :
    s.Effect (.turn moment) (s.perform (.turn moment)).drainage := by
  have hquiet (hlooks : s.lookup? (.turn moment) = none)
      (hpasses : s.drainage.Passes s.throttle (s.perform (.turn moment)).drainage) :
      s.Effect (.turn moment) (s.perform (.turn moment)).drainage := .silent rfl rfl hlooks hpasses
  cases hcurrent : s.drainage.current? with
  | none =>
    have hnext : s.shift.next? s.throttle s.manager.worker moment = none := by
      rw [Shift.next?, show s.shift.drainage.current? = _ from hcurrent]
    refine hquiet (by simp [lookup?, hcurrent]) ?_
    rw [perform_turn_of_none hnext]
    exact .refl _
  | some present =>
    obtain ⟨i, task⟩ := present
    cases task with
    | holding t =>
      have hnext : s.shift.next? s.throttle s.manager.worker moment =
          some (s.shift.act s.throttle (.move i (.resolve (s.item? t.request.item)))) := by
        rw [Shift.next?, show s.shift.drainage.current? = _ from hcurrent]
        rfl
      obtain ⟨e, hperform⟩ : ∃ e, s.drainage.perform s.throttle
          (.move i (.resolve (s.item? t.request.item))) = some e := by
        rw [Drainage.perform_move_of_eq (Drainage.getElem?_of_current hcurrent)]
        cases s.item? t.request.item <;> exact ⟨_, rfl⟩
      have hresolved : (s.perform (.turn moment)).drainage = e :=
        (perform_turn_of_some hnext).trans (Shift.drainage_act_of_perform hperform)
      rw [hresolved]
      exact .lookedUp hcurrent hperform
    | waiting t item wakeAt =>
      exact hquiet (by simp [lookup?, hcurrent]) (passes_of_waiting hcurrent)
    | refreshing t item =>
      exact hquiet (by simp [lookup?, hcurrent]) (passes_of_refreshing hcurrent)
    | ended =>
      have hnext : s.shift.next? s.throttle s.manager.worker moment = none := by
        rw [Shift.next?, show s.shift.drainage.current? = _ from hcurrent]
      refine hquiet (by simp [lookup?, hcurrent]) ?_
      rw [perform_turn_of_none hnext]
      exact .refl _
    | _ =>
      -- every other task makes the one move that it can make
      refine hquiet (by simp [lookup?, hcurrent]) ?_
      have hcurrent' : s.shift.drainage.current? = _ := hcurrent
      rw [perform_turn_of_some (by rw [Shift.next?, hcurrent'])]
      exact s.shift.passes_act rfl

/-- Every act does to the queue one of the things that acts can do. -/
theorem effect (s : Session σ) (a : SessionAct σ) : s.Effect a (s.perform a).drainage := by
  cases a with
  | announce r =>
    refine .silent rfl rfl rfl ?_
    have hsame : (s.perform (.announce r)).drainage = s.drainage := s.drainage_call false _
    rw [hsame]
    exact .refl _
  | enqueue r inRuntime => exact .asked r inRuntime rfl
  | shutdown => exact .closed rfl
  | cancel => exact .silent rfl rfl rfl (s.shift.passes_act rfl)
  | call cancelled c =>
    refine .silent rfl rfl rfl ?_
    have hsame : (s.perform (.call cancelled c)).drainage = s.drainage :=
      s.drainage_call cancelled (s.manager.carryOut c)
    rw [hsame]
    exact .refl _
  | change f => exact .silent rfl rfl rfl (.refl _)
  | turn moment => exact s.effect_turn moment
  | elapse moment => exact .silent rfl rfl rfl (s.shift.passes_act rfl)
  | stall moment => exact .silent rfl rfl rfl (s.shift.passes_act rfl)

/-- What an act does to the queue are steps of its parties. -/
theorem Effect.run {a : SessionAct σ} {e : Drainage} (h : s.Effect a e) :
    ∃ bs, s.drainage.performAll s.throttle bs = some e := by
  cases h with
  | asked r inRuntime step => exact ⟨[_], Drainage.performAll_cons_of_eq step []⟩
  | closed step => exact ⟨[_], Drainage.performAll_cons_of_eq step []⟩
  | lookedUp current step => exact ⟨[_], Drainage.performAll_cons_of_eq step []⟩
  | silent asks closes looks passes => exact passes.run

/-- Only a turn in which a refresh ends changes more of the world than time does, and what is
logged of endings. -/
theorem turn_served (s : Session σ) (moment : Nat) :
    ∃ wait, ((s.perform (.turn moment)).world = s.world.later s.manager.host wait ∧
      (s.perform (.turn moment)).drainage.endings = s.drainage.endings) ∨
    ∃ r, s.shift.handed? s.manager s.throttle = some r ∧
      r.begins = { s.world.later s.manager.host wait with cancelled := r.begins.cancelled } ∧
      (s.perform (.turn moment)).world = r.ends s.manager ∧
      (s.perform (.turn moment)).drainage.endings =
        s.drainage.endings ++ [r.ending s.manager] := by
  cases hnext : s.shift.next? s.throttle s.manager.worker moment with
  | none =>
    refine ⟨0, Or.inl ?_⟩
    simp only [perform, hnext, world, drainage, Option.getD_none, World.later_zero, and_self]
  | some next =>
    have hworld : (s.perform (.turn moment)).world = next.work := by
      simp only [perform, hnext, world, Option.getD_some]
    obtain ⟨wait, hstep⟩ := Shift.next?_handed hnext
    rw [hworld, perform_turn_of_some hnext]
    refine ⟨wait, ?_⟩
    cases hhanded : s.shift.handed? s.manager s.throttle with
    | none =>
      rw [hhanded] at hstep
      exact Or.inl hstep
    | some r =>
      rw [hhanded] at hstep
      exact Or.inr ⟨r, rfl, hstep⟩

/-! ## Runs -/

theorem performAll_cons (s : Session σ) (a : SessionAct σ) (as : List (SessionAct σ)) :
    s.performAll (a :: as) = (s.perform a).performAll as := rfl

theorem performAll_append (s : Session σ) (as bs : List (SessionAct σ)) :
    s.performAll (as ++ bs) = (s.performAll as).performAll bs := List.foldl_append

@[simp] theorem manager_perform (s : Session σ) (a : SessionAct σ) :
    (s.perform a).manager = s.manager := by
  cases a with
  | call cancelled c => exact s.manager_call cancelled _
  | _ => rfl

/-- A session is a run of the manager alone. -/
@[simp] theorem manager_performAll (s : Session σ) (as : List (SessionAct σ)) :
    (s.performAll as).manager = s.manager := by
  induction as generalizing s with
  | nil => rfl
  | cons a rest ih => exact (ih (s.perform a)).trans (s.manager_perform a)

theorem shift_run_eq (s : Session σ) (moment fuel : Nat) :
    ∃ n, { s with shift := s.shift.run s.throttle s.manager.worker moment fuel } =
      s.performAll (List.replicate n (.turn moment)) := by
  induction fuel generalizing s with
  | zero => exact ⟨0, rfl⟩
  | succ fuel ih =>
    unfold Shift.run
    cases hnext : s.shift.next? s.throttle s.manager.worker moment with
    | none => exact ⟨0, rfl⟩
    | some next =>
      obtain ⟨n, hrun⟩ := ih { s with shift := next }
      have hturn : s.perform (.turn moment) = { s with shift := next } := by
        simp only [perform, hnext, Option.getD_some]
      refine ⟨n + 1, ?_⟩
      rw [List.replicate_succ, performAll_cons, hturn]
      exact hrun

/-- The queue of a run has made a run of its own. -/
theorem drainage_reached (m : Manager σ) (state : σ) (as : List (SessionAct σ)) :
    ∃ bs, Drainage.idle.performAll m.config.throttle bs =
      some ((fresh m state).performAll as).drainage := by
  induction as using List.reverseRecOn with
  | nil => exact ⟨[], rfl⟩
  | append_singleton as a ih =>
    obtain ⟨bs, hbs⟩ := ih
    have hthrottle : ((fresh m state).performAll as).throttle = m.config.throttle :=
      congrArg (fun m => m.config.throttle) ((fresh m state).manager_performAll as)
    obtain ⟨more, hmore⟩ := (((fresh m state).performAll as).effect a).run
    rw [hthrottle] at hmore
    refine ⟨bs ++ more, ?_⟩
    rw [Drainage.performAll_append, hbs, Option.bind_some, performAll_append]
    exact hmore

end Session

end MediaRefresh
