import MediaRefresh.Proofs.Queue.Step

/-!
# Queue: one drain at a time

All tasks but the last have ended, and the last one is live exactly while the queue
is marked as draining.  So two drain loops never run together, and a queue that is
idle with requests pending was either cancelled or left by a task whose refresh was
cancelled.  In that case the next request starts a task that serves the ones left
behind as well.
-/

set_option autoImplicit false

namespace MediaRefresh

open Drainage

/-- The moves of the task `i` in a run. -/
def Act.movesOf (i : Nat) (as : List Act) : List Move :=
  as.filterMap fun
    | .move j m => if j = i then some m else none
    | _ => none

/-- Whether a step is taken inside a runtime, if that matters to it. -/
def Act.inRuntime : Act → Bool
  | .enqueue _ inRuntime => inRuntime
  | _ => true

namespace Drainage

variable {throttle : Nat} {as bs : List Act} {a : Act} {d e f : Drainage} {i : Nat}

/-! ## All tasks but the last have ended -/

/-- All tasks have ended but the last one, which is live, while the queue is draining. -/
def Exclusive (d : Drainage) : Prop :=
  ∃ past : Nat,
    (d.queue.draining = false ∧ d.tasks = List.replicate past .ended) ∨
      (d.queue.draining = true ∧
        ∃ t : DrainTask, t.live = true ∧ d.tasks = List.replicate past .ended ++ [t])

theorem exclusive_idle : idle.Exclusive := ⟨0, Or.inl ⟨rfl, rfl⟩⟩

/-- A live task is the last one, and the queue is draining. -/
theorem Exclusive.of_live {t : DrainTask} (h : d.Exclusive) (ht : d.tasks[i]? = some t)
    (hlive : t.live = true) :
    d.queue.draining = true ∧ d.tasks = List.replicate i .ended ++ [t] := by
  obtain ⟨past, ⟨-, htasks⟩ | ⟨hdraining, last, -, htasks⟩⟩ := h
  · rw [htasks, List.getElem?_replicate] at ht
    split at ht
    · obtain rfl := Option.some.inj ht
      simp [DrainTask.live] at hlive
    · cases ht
  · rw [htasks, List.getElem?_append, List.length_replicate] at ht
    split at ht
    · rename_i hlt
      rw [List.getElem?_replicate_of_lt hlt] at ht
      obtain rfl := Option.some.inj ht
      simp [DrainTask.live] at hlive
    · obtain ⟨hi, rfl⟩ : i - past = 0 ∧ last = t := by
        simpa [List.getElem?_singleton] using ht
      obtain rfl : i = past := by omega
      exact ⟨hdraining, htasks⟩

/-- A move of a live task puts the last task in a new position. -/
theorem Exclusive.set_of_live {t : DrainTask} (h : d.Exclusive) (ht : d.tasks[i]? = some t)
    (hlive : t.live = true) (u : DrainTask) :
    d.tasks.set i u = List.replicate i .ended ++ [u] := by
  rw [(h.of_live ht hlive).2, List.set_append_right _ _ (by simp)]
  simp

/-- There are no two live tasks. -/
theorem Exclusive.live_unique {j : Nat} {t u : DrainTask} (h : d.Exclusive)
    (ht : d.tasks[i]? = some t) (hlive : t.live = true) (hu : d.tasks[j]? = some u)
    (hlive' : u.live = true) : i = j ∧ t = u := by
  have htasks := (h.of_live ht hlive).2.symm.trans (h.of_live hu hlive').2
  obtain rfl : i = j := by simpa using congrArg List.length htasks
  exact ⟨rfl, Option.some.inj (ht.symm.trans hu)⟩

theorem Step.exclusive (hstep : Step throttle d a e) (h : d.Exclusive) : e.Exclusive := by
  cases hstep.taskStep with
  | still htasks hmark =>
    unfold Exclusive
    rw [htasks, hmark]
    exact h
  | started hidle htasks hmark =>
    obtain ⟨past, ⟨-, hpast⟩ | ⟨hdraining, -⟩⟩ := h
    · exact ⟨past, Or.inr ⟨hmark, .checking, rfl, by rw [htasks, hpast]⟩⟩
    · rw [hidle] at hdraining
      cases hdraining
  | @moved i m t u _ ht hlive hnext htasks hmark =>
    rw [h.set_of_live ht hlive] at htasks
    exact ⟨i, Or.inr ⟨hmark.trans (h.of_live ht hlive).1, u, hnext, htasks⟩⟩
  | @ended i m t _ ht hlive htasks hmark =>
    rw [h.set_of_live ht hlive, ← List.replicate_succ'] at htasks
    exact ⟨i + 1, Or.inl ⟨hmark, htasks⟩⟩

/-- The number of live tasks is read off the mark of the queue. -/
theorem Exclusive.countP_live (h : d.Exclusive) :
    d.tasks.countP DrainTask.live = if d.queue.draining then 1 else 0 := by
  obtain ⟨past, ⟨hidle, htasks⟩ | ⟨hdraining, t, hlive, htasks⟩⟩ := h
  · simp [hidle, htasks, List.countP_replicate, DrainTask.live]
  · simp [hdraining, htasks, List.countP_append, List.countP_replicate, DrainTask.live,
      show (t != .ended) = true from hlive]

/-! ## A task that has ended is done -/

theorem Step.keeps_ended (hstep : Step throttle d a e) (h : d.tasks[i]? = some .ended) :
    e.tasks[i]? = some .ended := by
  have ne_of_live {j : Nat} {t : DrainTask} (ht : d.tasks[j]? = some t)
      (hlive : t.live = true) : j ≠ i := by
    rintro rfl
    obtain rfl := Option.some.inj (ht.symm.trans h)
    cases hlive
  cases hstep.taskStep with
  | still htasks => rw [htasks, h]
  | started _ htasks =>
    rw [htasks, List.getElem?_append_left (List.getElem?_eq_some_iff.mp h).1, h]
  | moved _ ht hlive _ htasks => rw [htasks, List.getElem?_set_ne (ne_of_live ht hlive), h]
  | ended _ ht hlive htasks => rw [htasks, List.getElem?_set_ne (ne_of_live ht hlive), h]

theorem keeps_ended_of_run (h : d.tasks[i]? = some .ended)
    (hrun : d.performAll throttle as = some e) : e.tasks[i]? = some .ended :=
  run_induction (fun _ e => e.tasks[i]? = some .ended) h
    (fun _ ih hstep => hstep.keeps_ended ih) hrun

/-- A task that has ended makes no move. -/
theorem perform_move_of_ended (h : d.tasks[i]? = some .ended) (m : Move) :
    d.perform throttle (.move i m) = none := by
  simp only [perform, h, Option.bind_some]
  cases m <;> rfl

end Drainage

/-! ## The moves of one task -/

namespace Act

@[simp] theorem movesOf_append (i : Nat) (as bs : List Act) :
    movesOf i (as ++ bs) = movesOf i as ++ movesOf i bs := List.filterMap_append

theorem movesOf_move_self (i : Nat) (m : Move) : movesOf i [.move i m] = [m] := by
  simp [movesOf]

theorem movesOf_of_ne {i : Nat} {a : Act} (h : ∀ m, a ≠ .move i m) : movesOf i [a] = [] := by
  cases a with
  | move j m =>
    have hji : j ≠ i := fun hji => h m (hji ▸ rfl)
    simp [movesOf, hji]
  | _ => rfl

theorem movesOf_move_of_ne {i j : Nat} (h : j ≠ i) (m : Move) : movesOf i [.move j m] = [] := by
  simp [movesOf, h]

end Act

namespace Drainage

variable {throttle : Nat} {as bs : List Act} {a : Act} {d e f : Drainage} {i : Nat}

/-- The refresh of the task `i` was cancelled and the task has ended because of that. -/
def StoppedByRefresh (as : List Act) (i : Nat) : Prop :=
  [Move.finish .cancelled, Move.leave] <:+ Act.movesOf i as

/-- The task `i` has ended because it found the queue empty. -/
def RanDry (as : List Act) (i : Nat) (d : Drainage) : Prop :=
  d.tasks[i]? = some .ended ∧ [Move.take] <:+ Act.movesOf i as

/-- A task on its way out has seen a cancellation: of the work, or of its refresh. -/
def LeavingExplained (as : List Act) (d : Drainage) : Prop :=
  ∀ i, d.tasks[i]? = some .leaving →
    d.queue.cancelled = true ∨ [Move.finish .cancelled] <:+ Act.movesOf i as

/-- An idle queue is empty, or the work was cancelled, or the refresh of the last
task was. -/
def IdleExplained (as : List Act) (d : Drainage) : Prop :=
  d.queue.draining = false →
    d.queue.pending = [] ∨ d.queue.cancelled = true ∨
      ∃ i, d.tasks.length = i + 1 ∧ StoppedByRefresh as i

/-- Cancellation is for good. -/
theorem Step.keeps_cancelled (hstep : Step throttle d a e) (h : d.queue.cancelled = true) :
    e.queue.cancelled = true := by
  cases hstep with
  | cancel => rfl
  | shutdown => rfl
  | _ => exact h

theorem Step.active_before (hstep : Step throttle d a e) (h : e.queue.cancelled = false) :
    d.queue.cancelled = false := by
  refine Bool.eq_false_iff.mpr fun hcancelled => ?_
  rw [hstep.keeps_cancelled hcancelled] at h
  cases h

/-- A move of one task explains what the others were explained by. -/
theorem LeavingExplained.of_set {j : Nat} {m : Move} {u : DrainTask}
    (h : LeavingExplained as d) (hcancelled : d.queue.cancelled = true → e.queue.cancelled = true)
    (htasks : e.tasks = d.tasks.set j u)
    (hnew : u = .leaving → e.queue.cancelled = true ∨ m = .finish .cancelled) :
    LeavingExplained (as ++ [.move j m]) e := by
  intro i hi
  rw [Act.movesOf_append]
  by_cases hij : j = i
  · subst hij
    have hu : u = .leaving := by
      rw [htasks, List.getElem?_set_self'] at hi
      cases hold : d.tasks[j]? with
      | none => simp [hold] at hi
      | some t => simpa [hold] using hi
    rw [Act.movesOf_move_self]
    rcases hnew hu with hall | rfl
    · exact Or.inl hall
    · exact Or.inr (List.suffix_append _ _)
  · rw [htasks, List.getElem?_set_ne hij] at hi
    rw [Act.movesOf_move_of_ne hij, List.append_nil]
    exact (h i hi).imp_left hcancelled

/-- A step that is no move explains what was explained before. -/
theorem LeavingExplained.of_still (h : LeavingExplained as d)
    (hcancelled : d.queue.cancelled = true → e.queue.cancelled = true)
    (htasks : ∀ i : Nat, e.tasks[i]? = some DrainTask.leaving →
      d.tasks[i]? = some DrainTask.leaving)
    (ha : ∀ i, Act.movesOf i [a] = []) : LeavingExplained (as ++ [a]) e := by
  intro i hi
  rw [Act.movesOf_append, ha, List.append_nil]
  exact (h i (htasks i hi)).imp_left hcancelled

theorem Step.leavingExplained (hstep : Step throttle d a e) (h : LeavingExplained as d) :
    LeavingExplained (as ++ [a]) e := by
  have hcancelled := hstep.keeps_cancelled
  cases hstep with
  | start r =>
    refine h.of_still hcancelled (fun i hi => ?_) fun _ => rfl
    rw [tasks_startTask, tasks_accept, List.getElem?_append] at hi
    split at hi
    · exact hi
    · simp [List.getElem?_singleton] at hi
  | halt i _ hall => exact h.of_set hcancelled rfl fun _ => Or.inl hall
  | proceed i => exact h.of_set hcancelled rfl (by simp)
  | pop i => exact h.of_set hcancelled rfl (by simp)
  | exhaust i => exact h.of_set hcancelled rfl (by simp)
  | resolve i => exact h.of_set hcancelled rfl (by simp)
  | skip i => exact h.of_set hcancelled rfl (by simp)
  | wake i => exact h.of_set hcancelled rfl (by simp)
  | abandon i t item wakeAt _ hall => exact h.of_set hcancelled rfl fun _ => Or.inl hall
  | finish i => exact h.of_set hcancelled rfl (by simp)
  | quit i => exact h.of_set hcancelled rfl fun _ => Or.inr rfl
  | leave i => exact h.of_set hcancelled rfl (by simp)
  | _ => exact h.of_still hcancelled (fun _ hi => hi) fun _ => rfl

/-- A step that leaves an idle queue as it is explains what was explained before. -/
theorem IdleExplained.of_still (h : IdleExplained as d) (hqueue : e.queue = d.queue)
    (htasks : e.tasks = d.tasks) (ha : ∀ i, Act.movesOf i [a] = []) :
    IdleExplained (as ++ [a]) e := by
  intro hidle
  rw [hqueue] at hidle ⊢
  refine (h hidle).imp_right fun hcause => hcause.imp_right ?_
  rintro ⟨i, hlength, hstopped⟩
  refine ⟨i, by rw [htasks, hlength], ?_⟩
  unfold StoppedByRefresh
  rw [Act.movesOf_append, ha, List.append_nil]
  exact hstopped

/-- Inside a runtime, an idle queue with requests pending has a reason. -/
theorem Step.idleExplained (hstep : Step throttle d a e) (hexclusive : d.Exclusive)
    (hleaving : LeavingExplained as d) (ha : a.inRuntime = true) (h : IdleExplained as d) :
    IdleExplained (as ++ [a]) e := by
  -- A live task moves on a queue that is draining, so only its end can make it idle.
  have busy {i : Nat} {t : DrainTask} (ht : d.tasks[i]? = some t) (hlive : t.live = true)
      (hmark : e.queue.draining = d.queue.draining) : IdleExplained (as ++ [a]) e := by
    intro hidle
    rw [hmark, (hexclusive.of_live ht hlive).1] at hidle
    cases hidle
  cases hstep with
  | refuse => exact h.of_still rfl rfl fun _ => rfl
  | accept r inRuntime _ hkept =>
    intro hidle
    obtain hdraining | houtside := hkept
    · exact absurd (hdraining.symm.trans hidle) (by simp)
    · exact absurd (ha.symm.trans houtside) (by simp)
  | start =>
    intro hidle
    cases hidle
  | cancel => exact fun _ => Or.inr (Or.inl rfl)
  | shutdown => exact fun _ => Or.inr (Or.inl rfl)
  | elapse => exact h.of_still rfl rfl fun _ => rfl
  | stall => exact h.of_still rfl rfl fun _ => rfl
  | halt i ht => exact busy ht rfl rfl
  | proceed i ht => exact busy ht rfl rfl
  | pop i ht => exact busy ht rfl rfl
  | exhaust i ht hempty => exact fun _ => Or.inl hempty
  | resolve i t item ht => exact busy ht rfl rfl
  | skip i t ht => exact busy ht rfl rfl
  | wake i t item wakeAt ht => exact busy ht rfl rfl
  | abandon i t item wakeAt ht => exact busy ht rfl rfl
  | finish i t item ending ht => exact busy ht rfl rfl
  | quit i t item ht => exact busy ht rfl rfl
  | leave i ht =>
    intro _
    obtain hcancelled | ⟨ms, hms⟩ := hleaving i ht
    · exact Or.inr (Or.inl hcancelled)
    · refine Or.inr (Or.inr ⟨i, ?_, ms, ?_⟩)
      · simp [(hexclusive.of_live ht rfl).2]
      · rw [Act.movesOf_append, Act.movesOf_move_self, ← hms]
        simp

/-- What is known of the tasks of a run: they exclude each other, and whoever is on
its way out has a reason. -/
theorem leavingExplained_of_run (hrun : idle.performAll throttle as = some d) :
    d.Exclusive ∧ LeavingExplained as d := by
  refine run_induction (fun as d => d.Exclusive ∧ LeavingExplained as d)
    ⟨exclusive_idle, fun i hi => ?_⟩ (fun _ ih hstep => ?_) hrun
  · cases hi
  · exact ⟨hstep.exclusive ih.1, hstep.leavingExplained ih.2⟩

theorem idleExplained_of_run (hrun : idle.performAll throttle as = some d)
    (hinside : ∀ a ∈ as, a.inRuntime = true) : IdleExplained as d := by
  refine run_induction
    (fun as d => (∀ a ∈ as, a.inRuntime = true) → IdleExplained as d)
    (fun _ _ => Or.inl rfl) (fun {as _ _ a} hmid ih hstep hinside => ?_) hrun hinside
  have hbefore : ∀ a ∈ as, a.inRuntime = true :=
    fun b hb => hinside b (List.mem_append_left _ hb)
  obtain ⟨hexclusive, hleaving⟩ := leavingExplained_of_run hmid
  exact hstep.idleExplained hexclusive hleaving (hinside a (by simp)) (ih hbefore)

/-! ## A new task serves what was left behind -/

/-- What the task `i` has taken from the queue, in order. -/
def poppedBy (i : Nat) (d : Drainage) : List Ticket :=
  (d.taken.filter fun p => p.1 = i).map Prod.snd

/-- The task that is started on the queue as it stands in `d` has every pending
request within its reach. -/
structure Restarts (throttle : Nat) (d e : Drainage) : Prop where
  draining : e.queue.draining = true
  /-- one new task, at the beginning of its loop -/
  tasks : e.tasks = d.tasks ++ [.checking]
  /-- nothing that was pending is lost by the start -/
  kept : d.queue.pending <+: e.queue.pending
  /-- later a request is still pending, or it was taken by the new task or one after it -/
  reached : ∀ (bs : List Act) (f : Drainage), e.performAll throttle bs = some f →
    ∀ t ∈ d.queue.pending,
      t ∈ f.queue.pending ∨ ∃ j, d.tasks.length ≤ j ∧ t ∈ poppedBy j f
  /-- the new task does not stop at an empty queue before it has taken them all -/
  served : ∀ (bs : List Act) (f : Drainage), e.performAll throttle bs = some f →
    RanDry bs d.tasks.length f → ∀ t ∈ d.queue.pending, t ∈ poppedBy d.tasks.length f

/-- What has been taken by a task stays taken by it. -/
theorem Step.poppedBy_subset (hstep : Step throttle d a e) (i : Nat) :
    poppedBy i d ⊆ poppedBy i e := by
  have hmono : d.taken <+: e.taken := hstep.told_prefix _
  exact ((hmono.filter _).map _).subset

/-- What was pending stays so unless a task takes it. -/
theorem Step.pending_or_popped (hstep : Step throttle d a e) {t : Ticket}
    (h : t ∈ d.queue.pending) :
    t ∈ e.queue.pending ∨ ∃ i, d.tasks[i]? = some .taking ∧ t ∈ poppedBy i e := by
  cases hstep.queueStep with
  | still hpending => exact Or.inl (hpending ▸ h)
  | accepted _ _ hpending => exact Or.inl (hpending ▸ List.mem_append_left _ h)
  | @popped i u _ ht hfirst _ _ htaken =>
    obtain rfl | hrest := List.mem_cons.mp ((Ticket.takeFirst_perm hfirst).subset h)
    · exact Or.inr ⟨i, ht, by simp [poppedBy, htaken]⟩
    · exact Or.inl hrest

/-- A step that is no move of a task leaves that task where it stands. -/
theorem Step.task_eq (hstep : Step throttle d a e) (hlt : i < d.tasks.length)
    (ha : ∀ m, a ≠ .move i m) : e.tasks[i]? = d.tasks[i]? := by
  cases hstep.taskStep with
  | still htasks => rw [htasks]
  | started _ htasks => rw [htasks, List.getElem?_append_left hlt]
  | @moved j m _ _ hact _ _ _ htasks =>
    rw [htasks, List.getElem?_set_ne fun hji : j = i => ha m (hji ▸ hact)]
  | @ended j m _ hact _ _ htasks =>
    rw [htasks, List.getElem?_set_ne fun hji : j = i => ha m (hji ▸ hact)]

/-- A ticket within the reach of the task `n` and of those after it. -/
structure WithinReach (n : Nat) (t : Ticket) (bs : List Act) (f : Drainage) : Prop where
  exclusive : f.Exclusive
  /-- the tasks before `n` have ended -/
  past : ∀ j < n, f.tasks[j]? = some .ended
  exists_ : n < f.tasks.length
  reached : t ∈ f.queue.pending ∨ ∃ j, n ≤ j ∧ t ∈ poppedBy j f
  /-- as long as the task is at work, nobody else takes the ticket -/
  own : f.tasks[n]? ≠ some .ended → t ∈ f.queue.pending ∨ t ∈ poppedBy n f
  served : RanDry bs n f → t ∈ poppedBy n f

/-- A task at work that may take a request is the one whose turn it is. -/
theorem WithinReach.turn {n : Nat} {t : Ticket} (h : WithinReach n t bs d)
    (ht : d.tasks[i]? = some .taking) :
    n ≤ i ∧ (d.tasks[n]? ≠ some .ended → i = n) := by
  constructor
  · by_contra hlt
    rw [h.past i (by omega)] at ht
    cases ht
  · intro hwork
    obtain ⟨u, hu⟩ : ∃ u, d.tasks[n]? = some u := ⟨_, List.getElem?_eq_getElem h.exists_⟩
    have hlive : u.live = true := by
      simp only [DrainTask.live, bne_iff_ne]
      rintro rfl
      exact hwork hu
    exact (h.exclusive.live_unique ht rfl hu hlive).1

theorem Step.withinReach {n : Nat} {t : Ticket} (hstep : Step throttle d a e)
    (h : WithinReach n t bs d) : WithinReach n t (bs ++ [a]) e where
  exclusive := hstep.exclusive h.exclusive
  past j hj := hstep.keeps_ended (h.past j hj)
  exists_ := by
    cases hstep.taskStep with
    | still htasks => exact htasks ▸ h.exists_
    | started _ htasks => simpa [htasks] using Nat.lt_succ_of_lt h.exists_
    | moved _ _ _ _ htasks => simpa [htasks] using h.exists_
    | ended _ _ _ htasks => simpa [htasks] using h.exists_
  reached := by
    obtain hpending | ⟨j, hj, hpopped⟩ := h.reached
    · exact (hstep.pending_or_popped hpending).imp_right
        fun ⟨i, hi, hpopped⟩ => ⟨i, (h.turn hi).1, hpopped⟩
    · exact Or.inr ⟨j, hj, hstep.poppedBy_subset j hpopped⟩
  own hwork := by
    have hbefore : d.tasks[n]? ≠ some .ended := fun hended => hwork (hstep.keeps_ended hended)
    obtain hpending | hpopped := h.own hbefore
    · refine (hstep.pending_or_popped hpending).imp_right ?_
      rintro ⟨i, hi, hpopped⟩
      exact (h.turn hi).2 hbefore ▸ hpopped
    · exact Or.inr (hstep.poppedBy_subset n hpopped)
  served := by
    rintro ⟨hended, hlast⟩
    by_cases hmove : ∃ m, a = .move n m
    · -- The task itself has moved: its last move found the queue empty.
      obtain ⟨m, rfl⟩ := hmove
      rw [Act.movesOf_append, Act.movesOf_move_self] at hlast
      obtain ⟨front, hfront⟩ := hlast
      obtain rfl : Move.take = m := by simpa using congrArg List.getLast? hfront
      cases hstep with
      | pop _ ht => simp [List.getElem?_set_self', ht] at hended
      | exhaust _ ht hempty =>
        obtain hpending | hpopped := h.own (by simp [ht])
        · simp [hempty] at hpending
        · exact hpopped
    · have hother : ∀ m, a ≠ .move n m := fun m hm => hmove ⟨m, hm⟩
      rw [Act.movesOf_append, Act.movesOf_of_ne hother, List.append_nil] at hlast
      rw [hstep.task_eq h.exists_ hother] at hended
      exact hstep.poppedBy_subset n (h.served ⟨hended, hlast⟩)

/-- What is pending when a task starts is within the reach of that task. -/
theorem Exclusive.withinReach_of_start (h : d.Exclusive) (hidle : d.queue.draining = false)
    (r : RefreshRequest) {t : Ticket} (ht : t ∈ d.queue.pending) :
    WithinReach d.tasks.length t [] (d.accept r).startTask := by
  have hpending : t ∈ (d.accept r).startTask.queue.pending := List.mem_append_left _ ht
  obtain ⟨past, ⟨-, htasks⟩ | ⟨hdraining, -⟩⟩ := h
  · have hstarted : (d.accept r).startTask.tasks =
        List.replicate d.tasks.length .ended ++ [.checking] := by
      simp [htasks]
    refine ⟨⟨d.tasks.length, Or.inr ⟨rfl, .checking, rfl, hstarted⟩⟩, fun j hj => ?_, ?_,
      Or.inl hpending, fun _ => Or.inl hpending, ?_⟩
    · rw [hstarted, List.getElem?_append_left (by simpa using hj),
        List.getElem?_replicate_of_lt hj]
    · simp
    · rintro ⟨-, hlast⟩
      simp [Act.movesOf] at hlast
  · rw [hidle] at hdraining
    cases hdraining

/-- A request that comes to an idle open queue starts a task for all that is pending. -/
theorem Exclusive.restarts (h : d.Exclusive) (hidle : d.queue.draining = false)
    (r : RefreshRequest) : Restarts throttle d (d.accept r).startTask where
  draining := rfl
  tasks := rfl
  kept := List.prefix_append _ _
  reached _ _ hrun _ ht :=
    (run_induction (WithinReach _ _) (h.withinReach_of_start hidle r ht)
      (fun _ ih hstep => hstep.withinReach ih) hrun).reached
  served _ _ hrun hdry _ ht :=
    (run_induction (WithinReach _ _) (h.withinReach_of_start hidle r ht)
      (fun _ ih hstep => hstep.withinReach ih) hrun).served hdry

/-- In every run at most one task is live, the queue is draining exactly while there
is one, and a task that has ended makes no move ever again.  With all requests
enqueued inside a runtime, an idle queue with requests pending has been cancelled, or
the refresh of its last task was; and unless the queue is closed, the next request
starts a task that serves what was left behind as well. -/
theorem single_drain_strands_nothing {throttle : Nat} {as : List Act} {d : Drainage}
    (hrun : idle.performAll throttle as = some d) :
    (d.tasks.countP DrainTask.live = if d.queue.draining then 1 else 0) ∧
      (∀ i, d.tasks[i]? = some .ended → ∀ bs e, d.performAll throttle bs = some e →
        e.tasks[i]? = some .ended ∧ ∀ m, e.perform throttle (.move i m) = none) ∧
      ((∀ a ∈ as, a.inRuntime = true) → d.queue.draining = false → d.queue.pending ≠ [] →
        (d.queue.cancelled = true ∨
          ∃ i, d.tasks.length = i + 1 ∧ StoppedByRefresh as i) ∧
        (d.queue.closed = false → ∀ r, ∃ e,
          d.perform throttle (.enqueue r true) = some e ∧ Restarts throttle d e)) := by
  obtain ⟨hexclusive, -⟩ := leavingExplained_of_run hrun
  refine ⟨hexclusive.countP_live, fun i hended bs e hlater => ?_,
    fun hinside hidle hpending => ⟨?_, fun hopened r => ?_⟩⟩
  · have hstill := keeps_ended_of_run hended hlater
    exact ⟨hstill, perform_move_of_ended hstill⟩
  · exact (idleExplained_of_run hrun hinside hidle).resolve_left hpending
  · refine ⟨(d.accept r).startTask, ?_, hexclusive.restarts hidle r⟩
    simp [perform, enqueue, hopened, hidle]

/-- A run that leaves a request behind: the refresh of the first of two is cancelled. -/
def strandingRun : List Act :=
  let request : RefreshRequest := ⟨.zero, .standard, .normal⟩
  [.enqueue request true, .enqueue request true, .move 0 .check, .move 0 .take,
    .move 0 (.resolve (some (.bare .zero .movie "Alien"))), .move 0 .wake,
    .move 0 (.finish .cancelled), .move 0 .leave]

theorem strandingRun_restarts :
    ∃ d, idle.performAll 0 strandingRun = some d ∧
      (∀ a ∈ strandingRun, a.inRuntime = true) ∧ d.queue.draining = false ∧
      d.queue.pending ≠ [] ∧ d.queue.closed = false ∧
      d.tasks.countP DrainTask.live = 0 ∧ (∃ i, StoppedByRefresh strandingRun i) ∧
      ∀ r, ∃ e, d.perform 0 (.enqueue r true) = some e ∧ Restarts 0 d e := by
  refine ⟨_, rfl, by decide, rfl, List.cons_ne_nil _ _, rfl, ?_⟩
  have hmain := @single_drain_strands_nothing 0 strandingRun _ rfl
  obtain ⟨hlive, -, hstranded⟩ := hmain
  obtain ⟨hcause, hrestarts⟩ := hstranded (by decide) rfl (List.cons_ne_nil _ _)
  refine ⟨hlive, ?_, hrestarts rfl⟩
  obtain hcancelled | ⟨i, -, hstopped⟩ := hcause
  · cases hcancelled
  · exact ⟨i, hstopped⟩

end Drainage

end MediaRefresh
