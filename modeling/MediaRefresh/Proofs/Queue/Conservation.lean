import MediaRefresh.Proofs.Queue.Acceptance
import MediaRefresh.Proofs.Queue.SingleDrain
import Mathlib.Data.List.Nodup

/-!
# Queue: no request is lost and none is served twice

Every accepted request is in exactly one place: pending, held by the task at work,
skipped because its item no longer existed, finished after it was handed to the
worker once, or dropped during its wait.  Over a whole run at most one is dropped,
and after a cancellation at most one more refresh starts: both belong to the one
task that had looked for the cancellation before it came.  That task may have popped
its request already, or may pop it behind the cancellation.
-/

set_option autoImplicit false

namespace MediaRefresh

open Drainage

namespace DrainTask

/-- The ticket that a task holds: taken, and its refresh not yet ended. -/
def held? : DrainTask → Option Ticket
  | holding t => some t
  | waiting t _ _ => some t
  | refreshing t _ => some t
  | _ => none

/-- The ticket that a task is refreshing. -/
def refreshing? : DrainTask → Option Ticket
  | refreshing t _ => some t
  | _ => none

/-- The ticket that a task holds without having started its refresh. -/
def waiting? : DrainTask → Option Ticket
  | holding t => some t
  | waiting t _ _ => some t
  | _ => none

/-- Whether a task has to look for a cancellation before it takes or starts anything. -/
def spent : DrainTask → Bool
  | taking => false
  | holding _ => false
  | waiting .. => false
  | _ => true

end DrainTask

namespace Drainage

variable {α : Type} {throttle : Nat} {as bs : List Act} {a : Act} {d e : Drainage} {i : Nat}

/-! ## What the tasks hold -/

/-- What the tasks stand for under a reading of their positions. -/
def standing (d : Drainage) (reading : DrainTask → Option α) : List α :=
  d.tasks.filterMap reading

/-- The requests that the tasks hold. -/
abbrev held (d : Drainage) : List Ticket := d.standing DrainTask.held?

/-- The requests that are being refreshed. -/
abbrev running (d : Drainage) : List Ticket := d.standing DrainTask.refreshing?

/-- What is being refreshed is held. -/
theorem running_sublist_held (d : Drainage) : d.running.Sublist d.held := by
  unfold running held standing
  induction d.tasks with
  | nil => exact .slnil
  | cons t rest ih =>
    cases t with
    | refreshing t item => exact ih.cons_cons t
    | holding t => exact ih.cons t
    | waiting t item wakeAt => exact ih.cons t
    | _ => exact ih

/-- Only the task at work stands for anything. -/
theorem Exclusive.standing_eq {t : DrainTask} {reading : DrainTask → Option α}
    (h : d.Exclusive) (hended : reading .ended = none) (ht : d.tasks[i]? = some t)
    (hlive : t.live = true) : d.standing reading = (reading t).toList := by
  unfold standing
  rw [(h.of_live ht hlive).2, List.filterMap_append]
  cases hreading : reading t <;> simp [hended, hreading]

/-- After a move only the new position of the task counts. -/
theorem Exclusive.standing_set {t u : DrainTask} {reading : DrainTask → Option α}
    (h : d.Exclusive) (hended : reading .ended = none) (ht : d.tasks[i]? = some t)
    (hlive : t.live = true) (htasks : e.tasks = d.tasks.set i u) :
    e.standing reading = (reading u).toList := by
  unfold standing
  rw [htasks, h.set_of_live ht hlive, List.filterMap_append]
  cases hreading : reading u <;> simp [hended, hreading]

/-- A task at the beginning of its loop stands for nothing. -/
theorem standing_startTask (d : Drainage) {reading : DrainTask → Option α}
    (hchecking : reading .checking = none) : d.startTask.standing reading = d.standing reading := by
  simp [standing, hchecking]

/-- Without a task at work, the tasks stand for nothing. -/
theorem standing_replicate {past : Nat} {reading : DrainTask → Option α}
    (hended : reading .ended = none) (htasks : d.tasks = List.replicate past .ended) :
    d.standing reading = [] := by
  rw [standing, htasks, List.filterMap_replicate_of_none hended]

/-- Either all tasks have ended or there is one at work. -/
theorem Exclusive.ended_or_live (h : d.Exclusive) :
    (∃ past, d.tasks = List.replicate past .ended) ∨
      ∃ (i : Nat) (t : DrainTask), d.tasks[i]? = some t ∧ t.live = true := by
  obtain ⟨past, ⟨-, htasks⟩ | ⟨-, t, hlive, htasks⟩⟩ := h
  · exact Or.inl ⟨past, htasks⟩
  · exact Or.inr ⟨past, t, by simp [htasks], hlive⟩

/-- The tasks hold at most one request. -/
theorem Exclusive.held_length_le (h : d.Exclusive) : d.held.length ≤ 1 := by
  obtain ⟨past, htasks⟩ | ⟨i, t, ht, hlive⟩ := h.ended_or_live
  · have hheld : d.held = [] := standing_replicate rfl htasks
    simp [hheld]
  · have hheld : d.held = t.held?.toList := h.standing_eq rfl ht hlive
    rw [hheld]
    cases t.held? <;> simp

/-! ## Every accepted request is in one place -/

/-- Where the requests are that have been taken from the queue. -/
def handled (d : Drainage) : List Ticket :=
  d.held ++ (d.skipped ++ (d.finished ++ d.dropped))

/-- Each request that was taken is in one place, and exactly the refreshes that run or
have ended were started. -/
structure Conserved (d : Drainage) : Prop where
  taken : d.popped.Perm d.handled
  handed : d.started.Perm (d.running ++ d.finished)

theorem conserved_idle : idle.Conserved := ⟨List.Perm.refl _, List.Perm.refl _⟩

/-- An acceptance keeps the account of what has been taken. -/
theorem Conserved.accept (h : d.Conserved) (r : RefreshRequest) : (d.accept r).Conserved where
  taken := by simpa [handled, popped, standing] using h.taken
  handed := by simpa [standing] using h.handed

/-- A move of a task keeps the account when it keeps that of the moved task alone. -/
theorem Conserved.of_set {t u : DrainTask} (h : d.Conserved) (hexclusive : d.Exclusive)
    (ht : d.tasks[i]? = some t) (hlive : t.live = true) (htasks : e.tasks = d.tasks.set i u)
    (htaken : d.popped.Perm (t.held?.toList ++ (d.skipped ++ (d.finished ++ d.dropped))) →
      e.popped.Perm (u.held?.toList ++ (e.skipped ++ (e.finished ++ e.dropped))))
    (hhanded : d.started.Perm (t.refreshing?.toList ++ d.finished) →
      e.started.Perm (u.refreshing?.toList ++ e.finished)) : e.Conserved where
  taken := by
    have hheld : d.held = t.held?.toList := hexclusive.standing_eq rfl ht hlive
    have hheld' : e.held = u.held?.toList := hexclusive.standing_set rfl ht hlive htasks
    unfold handled
    rw [hheld']
    exact htaken (hheld ▸ h.taken)
  handed := by
    have hrunning : d.running = t.refreshing?.toList := hexclusive.standing_eq rfl ht hlive
    have hrunning' : e.running = u.refreshing?.toList :=
      hexclusive.standing_set rfl ht hlive htasks
    rw [hrunning']
    exact hhanded (hrunning ▸ h.handed)

/-- The end of a refresh keeps the account. -/
theorem Conserved.of_finish {t : Ticket} {item : Item} {ending : Ending} {u : DrainTask}
    (h : d.Conserved) (hexclusive : d.Exclusive)
    (ht : d.tasks[i]? = some (.refreshing t item)) (hu : u.held? = none)
    (hu' : u.refreshing? = none) :
    ((d.note (.finished t ending)).setTask i u).Conserved := by
  refine h.of_set hexclusive ht rfl rfl (fun hold => ?_) (fun hold => ?_)
  · have hbehind : (t :: (d.skipped ++ (d.finished ++ d.dropped))).Perm
        (d.skipped ++ (d.finished ++ t :: d.dropped)) := by
      simpa using (@List.perm_middle _ t (d.skipped ++ d.finished) d.dropped).symm
    simpa [popped, hu] using hold.trans hbehind
  · simpa [hu'] using hold.trans (List.perm_append_singleton t d.finished).symm

theorem Step.conserved (hstep : Step throttle d a e) (hexclusive : d.Exclusive)
    (h : d.Conserved) : e.Conserved := by
  cases hstep with
  | refuse => exact h
  | accept r => exact h.accept r
  | start r =>
    have hkept : (d.accept r).Conserved := h.accept r
    have hheld : (d.accept r).startTask.held = (d.accept r).held := standing_startTask _ rfl
    have hrunning : (d.accept r).startTask.running = (d.accept r).running :=
      standing_startTask _ rfl
    refine ⟨?_, ?_⟩
    · rw [handled, hheld]
      exact hkept.taken
    · rw [hrunning]
      exact hkept.handed
  | cancel => exact ⟨h.taken, h.handed⟩
  | shutdown => exact ⟨h.taken, h.handed⟩
  | elapse => exact ⟨h.taken, h.handed⟩
  | stall => exact ⟨h.taken, h.handed⟩
  | halt i ht => exact h.of_set hexclusive ht rfl rfl id id
  | proceed i ht => exact h.of_set hexclusive ht rfl rfl id id
  | pop i ht t rest hfirst =>
    refine h.of_set hexclusive ht rfl rfl (fun hold => ?_) (fun hold => ?_)
    · have hfront := (hold.append_right [t]).trans (List.perm_append_singleton t _)
      simpa [popped, DrainTask.held?] using hfront
    · simpa [DrainTask.refreshing?] using hold
  | exhaust i ht hempty => exact h.of_set hexclusive ht rfl rfl id id
  | resolve i t item ht => exact h.of_set hexclusive ht rfl rfl id id
  | skip i t ht =>
    refine h.of_set hexclusive ht rfl rfl (fun hold => ?_) (fun hold => ?_)
    · have hskipped := hold.trans
        (@List.perm_middle _ t d.skipped (d.finished ++ d.dropped)).symm
      simpa [popped, DrainTask.held?] using hskipped
    · simpa [DrainTask.refreshing?] using hold
  | wake i t item wakeAt ht =>
    refine h.of_set hexclusive ht rfl rfl (fun hold => ?_) (fun hold => ?_)
    · simpa [popped, DrainTask.held?] using hold
    · have hstarted := (hold.append_right [t]).trans (List.perm_append_singleton t _)
      simpa [DrainTask.refreshing?] using hstarted
  | abandon i t item wakeAt ht =>
    refine h.of_set hexclusive ht rfl rfl (fun hold => ?_) (fun hold => ?_)
    · have hdropped := hold.trans
        (List.perm_append_singleton t (d.skipped ++ (d.finished ++ d.dropped))).symm
      simpa [popped, DrainTask.held?] using hdropped
    · simpa [DrainTask.refreshing?] using hold
  | finish i t item ending ht => exact h.of_finish hexclusive ht rfl rfl
  | quit i t item ht => exact h.of_finish hexclusive ht rfl rfl
  | leave i ht => exact h.of_set hexclusive ht rfl rfl id id

/-- What is known of every run: the tasks exclude each other, and the account is kept. -/
theorem conserved_of_run (hrun : idle.performAll throttle as = some d) :
    d.Exclusive ∧ d.Conserved :=
  run_induction (fun _ d => d.Exclusive ∧ d.Conserved) ⟨exclusive_idle, conserved_idle⟩
    (fun _ ih hstep => ⟨hstep.exclusive ih.1, hstep.conserved ih.1 ih.2⟩) hrun

/-- With acceptances that are all different, no request is in two places. -/
theorem Conserved.count_le_one (h : d.Conserved) (hnodup : d.accepted.Nodup)
    (hperm : d.accepted.Perm (d.queue.pending ++ d.popped)) (t : Ticket) :
    d.queue.pending.count t + (d.held.count t + (d.skipped.count t +
      (d.finished.count t + d.dropped.count t))) ≤ 1 := by
  have hplaces : d.accepted.count t = (d.queue.pending ++ d.handled).count t :=
    (hperm.trans (h.taken.append_left _)).count_eq t
  have hone := List.nodup_iff_count_le_one.mp hnodup t
  simpa only [hplaces, handled, List.count_append] using hone

/-- What was started is being refreshed or has been finished. -/
theorem Conserved.count_started (h : d.Conserved) (t : Ticket) :
    d.started.count t = d.running.count t + d.finished.count t := by
  rw [h.handed.count_eq t, List.count_append]

/-- What has been finished was started once. -/
theorem Conserved.started_of_finished (h : d.Conserved) (hnodup : d.accepted.Nodup)
    (hperm : d.accepted.Perm (d.queue.pending ++ d.popped)) {t : Ticket}
    (ht : t ∈ d.finished) : d.started.count t = 1 := by
  have hplaces := h.count_le_one hnodup hperm t
  have hstarted := h.count_started t
  have hrunning := (running_sublist_held d).count_le t
  have hfinished := List.count_pos_iff.mpr ht
  omega

/-- What is pending, was skipped or was dropped has never been started. -/
theorem Conserved.notMem_started (h : d.Conserved) (hnodup : d.accepted.Nodup)
    (hperm : d.accepted.Perm (d.queue.pending ++ d.popped)) {t : Ticket}
    (ht : t ∈ d.queue.pending ∨ t ∈ d.skipped ∨ t ∈ d.dropped) : t ∉ d.started := by
  have hplaces := h.count_le_one hnodup hperm t
  have hstarted := h.count_started t
  have hrunning := (running_sublist_held d).count_le t
  rw [← List.count_pos_iff, ← List.count_pos_iff, ← List.count_pos_iff] at ht
  rw [← List.count_eq_zero]
  omega

/-! ## At most one request is dropped -/

/-- Tasks that have ended have to look for a cancellation as well, so only the last
one counts. -/
theorem spent_of_last {past : Nat} {t : DrainTask} (ht : t.spent = true) :
    ∀ u ∈ List.replicate past .ended ++ [t], u.spent = true := by
  intro u hu
  obtain hu | hu := List.mem_append.mp hu
  · rw [List.eq_of_mem_replicate hu]
    rfl
  · rw [List.mem_singleton.mp hu]
    exact ht

theorem Exclusive.spent_of_set {t u : DrainTask} (h : d.Exclusive) (ht : d.tasks[i]? = some t)
    (hlive : t.live = true) (hu : u.spent = true) (htasks : e.tasks = d.tasks.set i u) :
    ∀ v ∈ e.tasks, v.spent = true := by
  rw [htasks, h.set_of_live ht hlive]
  exact spent_of_last hu

/-- A task that would have to look for a cancellation next finds one. -/
theorem Step.of_spent (hstep : Step throttle d a e) (hcancelled : d.queue.cancelled = true)
    (hspent : ∀ u ∈ d.tasks, u.spent = true) :
    (∀ u ∈ e.tasks, u.spent = true) ∧ e.taken = d.taken ∧ e.started = d.started ∧
      e.dropped = d.dropped := by
  have hset {i : Nat} {u : DrainTask} (hu : u.spent = true) :
      ∀ v ∈ d.tasks.set i u, v.spent = true := fun v hv =>
    (List.mem_or_eq_of_mem_set hv).elim (hspent v) fun heq => heq ▸ hu
  have hnot {i : Nat} {t : DrainTask} (ht : d.tasks[i]? = some t) (hfresh : t.spent = false) :
      False := by
    simpa [hfresh] using hspent t (List.mem_of_getElem? ht)
  cases hstep with
  | accept => exact ⟨hspent, by simp, by simp, by simp⟩
  | start =>
    refine ⟨fun u hu => ?_, by simp, by simp, by simp⟩
    obtain hu | hu := List.mem_append.mp hu
    · exact hspent u hu
    · rw [List.mem_singleton.mp hu]
      rfl
  | halt => exact ⟨hset rfl, rfl, rfl, rfl⟩
  | proceed i _ hactive => simp [hcancelled] at hactive
  | pop i ht => exact (hnot ht rfl).elim
  | exhaust i => exact ⟨hset rfl, rfl, rfl, rfl⟩
  | resolve i t item ht => exact (hnot ht rfl).elim
  | skip i t ht => exact (hnot ht rfl).elim
  | wake i t item wakeAt ht => exact (hnot ht rfl).elim
  | abandon i t item wakeAt ht => exact (hnot ht rfl).elim
  | finish i => exact ⟨hset rfl, by simp, by simp, by simp⟩
  | quit i => exact ⟨hset rfl, by simp, by simp, by simp⟩
  | leave i => exact ⟨hset rfl, rfl, rfl, rfl⟩
  | _ => exact ⟨hspent, rfl, rfl, rfl⟩

/-- A request is dropped only by a task that has seen the cancellation, and no other
task comes so far again. -/
def DroppedOnce (d : Drainage) : Prop :=
  d.dropped = [] ∨
    (d.dropped.length = 1 ∧ d.queue.cancelled = true ∧ ∀ u ∈ d.tasks, u.spent = true)

theorem Step.droppedOnce (hstep : Step throttle d a e) (hexclusive : d.Exclusive)
    (h : d.DroppedOnce) : e.DroppedOnce := by
  obtain hnone | ⟨hone, hcancelled, hspent⟩ := h
  · cases hstep with
    | abandon i t item wakeAt ht hcancelled =>
      exact Or.inr ⟨by simp [hnone], hcancelled, hexclusive.spent_of_set ht rfl rfl rfl⟩
    | _ => exact Or.inl (by simpa using hnone)
  · obtain ⟨hspent', -, -, hdropped⟩ := hstep.of_spent hcancelled hspent
    exact Or.inr ⟨by rw [hdropped, hone], hstep.keeps_cancelled hcancelled, hspent'⟩

theorem droppedOnce_of_run (hrun : idle.performAll throttle as = some d) : d.DroppedOnce := by
  obtain ⟨-, hdropped⟩ : d.Exclusive ∧ d.DroppedOnce :=
    run_induction (fun _ d => d.Exclusive ∧ d.DroppedOnce) ⟨exclusive_idle, Or.inl rfl⟩
      (fun _ ih hstep => ⟨hstep.exclusive ih.1, hstep.droppedOnce ih.1 ih.2⟩) hrun
  exact hdropped

/-! ## At most one refresh starts after a cancellation -/

/-- Why a request may still be refreshed after the cancellation in `d`, as of `e`. -/
inductive Outruns (d e : Drainage) (t : Ticket) : Prop where
  /-- it had been popped and was in the hands of the task at work -/
  | inHand (popped : t ∈ d.held)
  /-- it was still pending: the task at work had looked for the cancellation before it came,
  and popped the request behind it, and no other one since -/
  | passedCheck {i : Nat} (checked : d.tasks[i]? = some .taking)
      (poppedNext : e.taken = d.taken ++ [(i, t)])

/-- What the one task that may have missed the cancellation in `d` has done until `e`. -/
inductive LastChance (d e : Drainage) : Prop where
  /-- it has yet to take a request -/
  | toTake {i : Nat} (then_ : d.tasks[i]? = some .taking) (now : e.tasks[i]? = some .taking)
      (taken : e.taken = d.taken) (started : e.started = d.started)
  /-- it has yet to start the refresh of a request -/
  | toStart {i : Nat} {t : Ticket} {u : DrainTask} (now : e.tasks[i]? = some u)
      (waits : u.waiting? = some t) (outruns : Outruns d e t) (started : e.started = d.started)
  /-- it has done all that it may -/
  | past (spent : ∀ u ∈ e.tasks, u.spent = true)
      (started : ∃ new, e.started = d.started ++ new ∧ new.length ≤ 1 ∧
        ∀ t ∈ new, Outruns d e t)

theorem Exclusive.lastChance (h : d.Exclusive) : LastChance d d := by
  have hpast : (∀ u ∈ d.tasks, u.spent = true) → LastChance d d := fun hspent =>
    .past hspent ⟨[], by simp, by simp, by simp⟩
  obtain ⟨past, htasks⟩ | ⟨i, t, ht, hlive⟩ := h.ended_or_live
  · refine hpast fun u hu => ?_
    rw [htasks] at hu
    rw [List.eq_of_mem_replicate hu]
    rfl
  · have hheld : d.held = t.held?.toList := h.standing_eq rfl ht hlive
    have hspent : t.spent = true → LastChance d d := fun hspent => hpast (by
      rw [(h.of_live ht hlive).2]
      exact spent_of_last hspent)
    cases t with
    | taking => exact .toTake ht ht rfl rfl
    | holding t => exact .toStart ht rfl (.inHand (by simp [hheld, DrainTask.held?])) rfl
    | waiting t => exact .toStart ht rfl (.inHand (by simp [hheld, DrainTask.held?])) rfl
    | _ => exact hspent rfl

/-- A step that takes nothing leaves this as it is. -/
theorem Outruns.of_taken {e' : Drainage} {t : Ticket} (h : Outruns d e t)
    (htaken : e'.taken = e.taken) : Outruns d e' t := by
  cases h with
  | inHand hpopped => exact .inHand hpopped
  | passedCheck hchecked hnext => exact .passedCheck hchecked (htaken.trans hnext)

theorem Step.lastChance_of_taking {f : Drainage} (hstep : Step throttle e a f)
    (hexclusive : e.Exclusive) (hthen : d.tasks[i]? = some .taking)
    (hnow : e.tasks[i]? = some .taking) (htaken : e.taken = d.taken)
    (hstarted : e.started = d.started) : LastChance d f := by
  have hturn {j : Nat} {t : DrainTask} (ht : e.tasks[j]? = some t) (hlive : t.live = true) :
      j = i ∧ t = .taking := hexclusive.live_unique ht hlive hnow rfl
  cases hstep with
  | start r _ hidle => simp [(hexclusive.of_live hnow rfl).1] at hidle
  | accept => exact .toTake hthen hnow (by simpa using htaken) (by simpa using hstarted)
  | pop j ht t rest =>
    obtain ⟨rfl, -⟩ := hturn ht rfl
    have hwaits : (DrainTask.holding t).waiting? = some t := rfl
    refine .toStart (i := j) (by simp [List.getElem?_set_self', ht]) hwaits
      (.passedCheck hthen ?_) (by simpa using hstarted)
    simp [htaken]
  | exhaust j ht =>
    have hspent := hexclusive.spent_of_set (e := e.endTask j) ht rfl rfl rfl
    exact .past hspent ⟨[], by simp [hstarted], by simp, by simp⟩
  | halt j ht => cases (hturn ht rfl).2
  | proceed j ht => cases (hturn ht rfl).2
  | resolve j t item ht => cases (hturn ht rfl).2
  | skip j t ht => cases (hturn ht rfl).2
  | wake j t item wakeAt ht => cases (hturn ht rfl).2
  | abandon j t item wakeAt ht => cases (hturn ht rfl).2
  | finish j t item ending ht => cases (hturn ht rfl).2
  | quit j t item ht => cases (hturn ht rfl).2
  | leave j ht => cases (hturn ht rfl).2
  | _ => exact .toTake hthen hnow htaken hstarted

theorem Step.lastChance_of_waiting {f : Drainage} {t : Ticket} {u : DrainTask}
    (hstep : Step throttle e a f) (hexclusive : e.Exclusive) (hnow : e.tasks[i]? = some u)
    (hwaits : u.waiting? = some t) (houtruns : Outruns d e t)
    (hstarted : e.started = d.started) : LastChance d f := by
  have hlive : u.live = true := by cases u <;> simp_all [DrainTask.waiting?, DrainTask.live]
  have hturn {j : Nat} {v : DrainTask} (hv : e.tasks[j]? = some v) (hlive' : v.live = true) :
      j = i ∧ v.waiting? = some t := by
    obtain ⟨rfl, rfl⟩ := hexclusive.live_unique hv hlive' hnow hlive
    exact ⟨rfl, hwaits⟩
  have hstill : f.tasks = e.tasks → f.taken = e.taken → f.started = e.started →
      LastChance d f := fun htasks htaken hstarted' =>
    .toStart (htasks ▸ hnow) hwaits (houtruns.of_taken htaken) (hstarted'.trans hstarted)
  cases hstep with
  | start r _ hidle => simp [(hexclusive.of_live hnow hlive).1] at hidle
  | accept => exact hstill rfl (by simp) (by simp)
  | resolve j t' item ht =>
    obtain ⟨rfl, hsame⟩ := hturn ht rfl
    refine .toStart (i := j) (u := .waiting t' item (e.clock + throttle)) ?_ hsame
      (houtruns.of_taken rfl) hstarted
    simp [List.getElem?_set_self', ht]
  | skip j t' ht =>
    refine .past ?_ ⟨[], by simp [hstarted], by simp, by simp⟩
    exact hexclusive.spent_of_set ht rfl rfl rfl
  | wake j t' item wakeAt ht =>
    obtain ⟨-, hsame⟩ := hturn ht rfl
    obtain rfl : t' = t := Option.some.inj hsame
    refine .past ?_ ⟨[t'], by simp [hstarted], by simp, fun x hx => ?_⟩
    · exact hexclusive.spent_of_set ht rfl rfl rfl
    · obtain rfl := List.mem_singleton.mp hx
      exact houtruns.of_taken (by simp)
  | abandon j t' item wakeAt ht =>
    refine .past ?_ ⟨[], by simp [hstarted], by simp, by simp⟩
    exact hexclusive.spent_of_set ht rfl rfl rfl
  | halt j ht => cases (hturn ht rfl).2
  | proceed j ht => cases (hturn ht rfl).2
  | pop j ht => cases (hturn ht rfl).2
  | exhaust j ht => cases (hturn ht rfl).2
  | finish j t' item ending ht => cases (hturn ht rfl).2
  | quit j t' item ht => cases (hturn ht rfl).2
  | leave j ht => cases (hturn ht rfl).2
  | _ => exact hstill rfl rfl rfl

theorem Step.lastChance {f : Drainage} (hstep : Step throttle e a f) (hexclusive : e.Exclusive)
    (hcancelled : e.queue.cancelled = true) (h : LastChance d e) : LastChance d f := by
  cases h with
  | toTake hthen hnow htaken hstarted =>
    exact hstep.lastChance_of_taking hexclusive hthen hnow htaken hstarted
  | toStart hnow hwaits houtruns hstarted =>
    exact hstep.lastChance_of_waiting hexclusive hnow hwaits houtruns hstarted
  | past hspent hstarted =>
    obtain ⟨hspent', htaken, hstarted', -⟩ := hstep.of_spent hcancelled hspent
    obtain ⟨new, hnew, hone, houtruns⟩ := hstarted
    exact .past hspent' ⟨new, hstarted'.trans hnew, hone, fun t ht =>
      (houtruns t ht).of_taken htaken⟩

/-- After a cancellation at most one more refresh starts. -/
theorem Exclusive.started_after_cancel (h : d.Exclusive) (hcancelled : d.queue.cancelled = true)
    (hrun : d.performAll throttle as = some e) :
    ∃ new, e.started = d.started ++ new ∧ new.length ≤ 1 ∧ ∀ t ∈ new, Outruns d e t := by
  obtain ⟨-, -, hchance⟩ : e.Exclusive ∧ e.queue.cancelled = true ∧ LastChance d e :=
    run_induction
      (fun _ e => e.Exclusive ∧ e.queue.cancelled = true ∧ LastChance d e)
      ⟨h, hcancelled, h.lastChance⟩
      (fun _ ih hstep => ⟨hstep.exclusive ih.1, hstep.keeps_cancelled ih.2.1,
        hstep.lastChance ih.1 ih.2.1 ih.2.2⟩) hrun
  cases hchance with
  | toTake _ _ _ hstarted => exact ⟨[], by simp [hstarted], by simp, by simp⟩
  | toStart _ _ _ hstarted => exact ⟨[], by simp [hstarted], by simp, by simp⟩
  | past _ hstarted => exact hstarted

/-! ## The account of a run -/

/-- What has become of the requests of the run `as`, which led to `d`. -/
structure Accounted (throttle : Nat) (as : List Act) (d : Drainage) : Prop where
  /-- a shutdown closes the queue, and nothing is accepted after it -/
  closed : d.queue.closed = true ↔ Act.shutdown ∈ as
  accepted : d.accepted.map Ticket.request = Act.requests (Act.beforeShutdown as)
  /-- every accepted request is in one place -/
  different : d.accepted.Nodup
  placed : d.accepted.Perm
    (d.queue.pending ++ (d.held ++ (d.skipped ++ (d.finished ++ d.dropped))))
  /-- what is held was taken by the one task at work -/
  oneHeld : d.held.length ≤ 1
  /-- a finished request was handed to the worker once, and apart from these only one
  that is being refreshed has been -/
  finishedOnce : ∀ t ∈ d.finished, d.started.count t = 1
  handed : d.started.Perm (d.running ++ d.finished)
  notHanded : ∀ t, t ∈ d.queue.pending ∨ t ∈ d.skipped ∨ t ∈ d.dropped → t ∉ d.started
  /-- only a cancellation makes the queue drop a request, and only one -/
  droppedOnce : d.dropped.length ≤ 1
  cancelled : d.dropped ≠ [] → d.queue.cancelled = true
  /-- after a cancellation at most one more refresh starts: of the request in hand, or of the
  one that a task pops which had looked for the cancellation before -/
  lastRefresh : d.queue.cancelled = true → ∀ bs e, d.performAll throttle bs = some e →
    ∃ new, e.started = d.started ++ new ∧ new.length ≤ 1 ∧ ∀ t ∈ new, Outruns d e t

/-- No request is lost and none is served twice, in any run. -/
theorem requests_accounted {throttle : Nat} {as : List Act} {d : Drainage}
    (hrun : idle.performAll throttle as = some d) : Accounted throttle as d := by
  obtain ⟨hexclusive, hconserved⟩ := conserved_of_run hrun
  obtain ⟨hclosed, haccepted⟩ := accepted_requests_of_run hrun
  have hnodup := accepted_nodup_of_run hrun
  have hperm := accepted_perm_of_run hrun
  have hdropped := droppedOnce_of_run hrun
  exact {
    closed := hclosed
    accepted := haccepted
    different := hnodup
    placed := hperm.trans (hconserved.taken.append_left _)
    oneHeld := hexclusive.held_length_le
    finishedOnce := fun t ht => hconserved.started_of_finished hnodup hperm ht
    handed := hconserved.handed
    notHanded := fun t ht => hconserved.notMem_started hnodup hperm ht
    droppedOnce := by
      obtain hnone | ⟨hone, -, -⟩ := hdropped
      · simp [hnone]
      · exact Nat.le_of_eq hone
    cancelled := fun hsome => by
      obtain hnone | ⟨-, hcancelled, -⟩ := hdropped
      · exact absurd hnone hsome
      · exact hcancelled
    lastRefresh := fun hcancelled bs e hlater =>
      hexclusive.started_after_cancel hcancelled hlater }

/-- A run in which one request is finished, one is skipped and one is dropped while a
fourth stays pending. -/
def droppingRun : List Act :=
  let request : RefreshRequest := ⟨.zero, .standard, .normal⟩
  let found : Move := .resolve (some (.bare .zero .movie "Alien"))
  [.enqueue request true, .enqueue request true, .enqueue request true, .enqueue request true,
    .move 0 .check, .move 0 .take, .move 0 found, .move 0 .wake, .move 0 (.finish .succeeded),
    .move 0 .check, .move 0 .take, .move 0 (.resolve none),
    .move 0 .check, .move 0 .take, .move 0 found, .shutdown, .move 0 .abandon]

theorem droppingRun_accounted :
    ∃ d, idle.performAll 0 droppingRun = some d ∧ Accounted 0 droppingRun d ∧
      d.queue.pending.length = 1 ∧ d.finished.length = 1 ∧ d.skipped.length = 1 ∧
      d.dropped.length = 1 :=
  ⟨_, rfl, @requests_accounted 0 droppingRun _ rfl, rfl, rfl, rfl, rfl⟩

/-- The work is cancelled between a task's question for the cancellation and its pop. -/
def cancelledBehindCheck : List Act :=
  [.enqueue ⟨.zero, .standard, .normal⟩ true, .move 0 .check, .cancel]

/-- The task pops its request, and without a wait its refresh starts. -/
def refreshAllTheSame : List Act :=
  [.move 0 .take, .move 0 (.resolve (some (.bare .zero .movie "Alien"))), .move 0 .wake]

/-- The refresh that starts after a cancellation may be of a request that nobody had popped. -/
theorem pending_outruns_cancel :
    ¬ ∀ (throttle : Nat) (as bs : List Act) (d e : Drainage),
      idle.performAll throttle as = some d → d.queue.cancelled = true →
        d.performAll throttle bs = some e → ∀ t ∈ e.started, t ∉ d.started → t ∈ d.held := by
  intro h
  have hpopped := h 0 cancelledBehindCheck refreshAllTheSame _ _ rfl rfl rfl
    ⟨⟨.zero, .standard, .normal⟩, 0⟩ (by decide) (by decide)
  exact absurd hpopped (by decide)

end Drainage

end MediaRefresh
