import MediaRefresh.Proofs.Queue.Step

/-!
# Queue: which requests are accepted

The accepted requests are those that were enqueued before the first shutdown, in
their order, and each has a place in sequence of its own.  Each is pending or has
been popped.
-/

set_option autoImplicit false

namespace MediaRefresh

open Drainage

namespace Act

/-- The requests that a run enqueues, accepted or not. -/
def requests (as : List Act) : List RefreshRequest :=
  as.filterMap fun
    | .enqueue r _ => some r
    | _ => none

/-- The part of a run before its first shutdown. -/
def beforeShutdown (as : List Act) : List Act := as.takeWhile (· ≠ .shutdown)

@[simp] theorem requests_append (as bs : List Act) :
    requests (as ++ bs) = requests as ++ requests bs := List.filterMap_append

theorem beforeShutdown_of_mem {as : List Act} (h : Act.shutdown ∈ as) (a : Act) :
    beforeShutdown (as ++ [a]) = beforeShutdown as := by
  induction as with
  | nil => cases h
  | cons b rest ih =>
    by_cases hb : b = .shutdown
    · simp [beforeShutdown, hb]
    · have hrest : Act.shutdown ∈ rest := (List.mem_cons.mp h).resolve_left (Ne.symm hb)
      simpa [beforeShutdown, hb] using ih hrest

theorem beforeShutdown_append_of_notMem {as : List Act} (h : Act.shutdown ∉ as)
    (bs : List Act) : beforeShutdown (as ++ bs) = as ++ beforeShutdown bs := by
  refine List.takeWhile_append_of_pos fun a ha => ?_
  simpa using fun hshutdown : a = .shutdown => h (hshutdown ▸ ha)

end Act

namespace Drainage

variable {throttle : Nat} {as bs : List Act} {a : Act} {d e : Drainage}

/-- The queue is closed exactly after a shutdown. -/
theorem Step.closed_iff (hstep : Step throttle d a e)
    (h : d.queue.closed = true ↔ Act.shutdown ∈ as) :
    e.queue.closed = true ↔ Act.shutdown ∈ as ++ [a] := by
  rw [List.mem_append, List.mem_singleton, ← h]
  cases hstep with
  | shutdown => simp
  | _ => simp

/-- One more step accepts what it enqueues, unless there has been a shutdown. -/
theorem Step.accepted_requests (hstep : Step throttle d a e)
    (hclosed : d.queue.closed = true ↔ Act.shutdown ∈ as)
    (h : d.accepted.map Ticket.request = Act.requests (Act.beforeShutdown as)) :
    e.accepted.map Ticket.request = Act.requests (Act.beforeShutdown (as ++ [a])) := by
  by_cases hshutdown : Act.shutdown ∈ as
  · rw [Act.beforeShutdown_of_mem hshutdown, ← h]
    cases hstep.queueStep with
    | still _ _ haccepted => rw [haccepted]
    | accepted _ hopened => simp [hclosed.mpr hshutdown] at hopened
    | popped _ _ _ _ haccepted => rw [haccepted]
  · have hopened : d.queue.closed = false :=
      Bool.eq_false_iff.mpr fun hclosed' => hshutdown (hclosed.mp hclosed')
    have hbefore : Act.beforeShutdown as = as := by
      simpa [Act.beforeShutdown] using Act.beforeShutdown_append_of_notMem hshutdown []
    rw [hbefore] at h
    rw [Act.beforeShutdown_append_of_notMem hshutdown, Act.requests_append, ← h]
    cases hstep with
    | refuse _ _ hrefused => simp [hopened] at hrefused
    | _ => simp [Act.beforeShutdown, Act.requests]

/-- The accepted requests are those enqueued before the first shutdown, in order. -/
theorem accepted_requests_of_run (hrun : idle.performAll throttle as = some d) :
    (d.queue.closed = true ↔ Act.shutdown ∈ as) ∧
      d.accepted.map Ticket.request = Act.requests (Act.beforeShutdown as) := by
  refine run_induction
    (fun as d => (d.queue.closed = true ↔ Act.shutdown ∈ as) ∧
      d.accepted.map Ticket.request = Act.requests (Act.beforeShutdown as))
    ⟨by simp [idle, RefreshQueue.idle], rfl⟩ (fun _ ih hstep => ?_) hrun
  exact ⟨hstep.closed_iff ih.1, hstep.accepted_requests ih.1 ih.2⟩

/-- The accepted requests are numbered from zero. -/
theorem accepted_sequence_of_run (hrun : idle.performAll throttle as = some d) :
    d.accepted.map Ticket.sequence = List.range d.queue.accepted := by
  refine run_induction
    (fun _ d => d.accepted.map Ticket.sequence = List.range d.queue.accepted) rfl
    (fun _ ih hstep => ?_) hrun
  cases hstep.queueStep with
  | still _ hcounter haccepted => rw [haccepted, hcounter, ih]
  | accepted _ _ _ hcounter haccepted =>
    rw [haccepted, hcounter, List.map_append, ih, List.range_succ]
    rfl
  | popped _ _ _ hcounter haccepted => rw [haccepted, hcounter, ih]

/-- A later acceptance has a later place. -/
theorem accepted_pairwise_of_run (hrun : idle.performAll throttle as = some d) :
    d.accepted.Pairwise fun a b => a.sequence < b.sequence := by
  have hsequence := accepted_sequence_of_run hrun
  have hsorted : (d.accepted.map Ticket.sequence).Pairwise (· < ·) :=
    hsequence ▸ List.pairwise_lt_range
  exact List.pairwise_map.mp hsorted

/-- No two acceptances give the same ticket. -/
theorem accepted_nodup_of_run (hrun : idle.performAll throttle as = some d) :
    d.accepted.Nodup := by
  refine (accepted_pairwise_of_run hrun).imp ?_
  rintro a b hlt rfl
  exact Nat.lt_irrefl _ hlt

theorem Step.accepted_perm (hstep : Step throttle d a e)
    (h : d.accepted.Perm (d.queue.pending ++ d.popped)) :
    e.accepted.Perm (e.queue.pending ++ e.popped) := by
  unfold popped at h ⊢
  cases hstep.queueStep with
  | still hpending _ haccepted htaken => rwa [hpending, haccepted, htaken]
  | accepted _ _ hpending _ haccepted htaken =>
    rw [hpending, haccepted, htaken]
    refine (h.append_right _).trans ?_
    rw [List.append_assoc, List.append_assoc]
    exact List.perm_append_comm.append_left _
  | @popped i t _ _ hfirst _ haccepted htaken =>
    rw [haccepted, htaken, List.map_append, ← List.append_assoc]
    refine h.trans (((Ticket.takeFirst_perm hfirst).append_right _).trans ?_)
    exact (List.perm_append_singleton _ _).symm

/-- What was accepted is pending or has been popped. -/
theorem accepted_perm_of_run (hrun : idle.performAll throttle as = some d) :
    d.accepted.Perm (d.queue.pending ++ d.popped) :=
  run_induction (fun _ d => d.accepted.Perm (d.queue.pending ++ d.popped)) (List.Perm.refl _)
    (fun _ ih hstep => hstep.accepted_perm ih) hrun

end Drainage

end MediaRefresh
