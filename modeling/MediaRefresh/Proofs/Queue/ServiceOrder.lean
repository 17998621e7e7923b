import MediaRefresh.Proofs.Order.StableSort
import MediaRefresh.Proofs.Queue.Acceptance

/-!
# Queue: the order of service

A request that is popped is more urgent than each one that stays pending, or as
urgent and earlier.  Over a whole run, across all its tasks, the requests of one
priority are popped in the order in which they were accepted.  A batch is popped in
its stable sort by priority.
-/

set_option autoImplicit false

namespace MediaRefresh

open Drainage

/-! ## The stable sort of tickets -/

namespace Ticket

variable {a b c t : Ticket} {ts rest : List Ticket}

/-- Whether a ticket has a priority. -/
def has (p : Priority) (t : Ticket) : Bool := t.request.priority = p

/-- Whether `a` is at least as urgent as `b` by its priority alone. -/
def asUrgent (a b : Ticket) : Bool := a.request.priority.rank ≤ b.request.priority.rank

theorem asUrgent_trans (a b c : Ticket) (hab : a.asUrgent b = true) (hbc : b.asUrgent c = true) :
    a.asUrgent c = true := by
  simp only [asUrgent, decide_eq_true_eq] at *
  exact Nat.le_trans hab hbc

theorem asUrgent_total (a b : Ticket) : (a.asUrgent b || b.asUrgent a) = true := by
  simpa [asUrgent] using Nat.le_total _ _

theorem not_precedes_both (hab : a.precedes b = true) (hba : b.precedes a = true) : False := by
  rw [precedes_iff] at hab hba
  omega

/-- Sorting by priority is stable. -/
theorem filter_mergeSort (p : Priority) (ts : List Ticket) :
    (ts.mergeSort asUrgent).filter (has p) = ts.filter (has p) := by
  refine filter_mergeSort_of_tied asUrgent_trans asUrgent_total (fun a b ha hb => ?_) ts
  have hp : a.request.priority = p := by simpa [has] using ha
  have hp' : b.request.priority = p := by simpa [has] using hb
  simp [asUrgent, hp, hp']

/-- The stable sort by priority of what stands in sequence is its order of service. -/
theorem pairwise_precedes_mergeSort (hts : ts.Pairwise fun a b => a.sequence < b.sequence) :
    (ts.mergeSort asUrgent).Pairwise fun a b => a.precedes b = true := by
  refine List.pairwise_iff_forall_sublist.mpr fun {a b} hab => ?_
  have hrank : a.asUrgent b = true := List.pairwise_iff_forall_sublist.mp
    (List.pairwise_mergeSort asUrgent_trans asUrgent_total ts) hab
  rw [asUrgent, decide_eq_true_eq] at hrank
  rw [precedes_iff]
  obtain hlt | heq := Nat.lt_or_eq_of_le hrank
  · exact Or.inl hlt
  · -- Tickets of one priority keep their order, so `a` stands before `b` in `ts` too.
    have hsame : b.request.priority = a.request.priority := rank_injective heq.symm
    have hfiltered := hab.filter (has a.request.priority)
    rw [filter_mergeSort] at hfiltered
    have hbefore : [a, b].Sublist ts := by
      simpa [has, hsame] using hfiltered.trans List.filter_sublist
    exact Or.inr ⟨heq, List.pairwise_iff_forall_sublist.mp hts hbefore⟩

/-- Of tickets that stand in sequence, the one that is taken precedes all others. -/
theorem precedes_of_takeFirst (hts : ts.Pairwise fun a b => a.sequence < b.sequence)
    (h : takeFirst ts = some (t, rest)) : ∀ b ∈ rest, t.precedes b = true := by
  obtain ⟨front, back, rfl, rfl, hfront, hback⟩ := takeFirst_eq_some h
  intro b hb
  obtain hb | hb := List.mem_append.mp hb
  · exact hfront b hb
  · have hlt : t.sequence < b.sequence :=
      List.rel_of_pairwise_cons (List.pairwise_append.mp hts).2.1 hb
    exact (not_precedes_iff (Nat.ne_of_gt hlt)).mp (hback b hb)

/-- Of tickets that stand in sequence, the one that is taken is the first of its priority. -/
theorem filter_of_takeFirst (hts : ts.Pairwise fun a b => a.sequence < b.sequence)
    (h : takeFirst ts = some (t, rest)) (p : Priority) :
    ts.filter (has p) = [t].filter (has p) ++ rest.filter (has p) := by
  obtain ⟨front, back, rfl, rfl, hfront, -⟩ := takeFirst_eq_some h
  by_cases hp : t.request.priority = p
  · have hnone : front.filter (has p) = [] := by
      refine List.filter_eq_nil_iff.mpr fun b hb hsame => ?_
      have hlt : b.sequence < t.sequence :=
        (List.pairwise_append.mp hts).2.2 b hb t List.mem_cons_self
      have hsame : b.request.priority = p := by simpa [has] using hsame
      have hfirst := hfront b hb
      rw [precedes_iff, hp, hsame] at hfirst
      omega
    simp [has, hp, hnone]
  · simp [has, hp]

end Ticket

namespace Drainage

variable {throttle : Nat} {as bs : List Act} {a : Act} {d e : Drainage}

/-! ## What is pending stands in the order of acceptance -/

theorem Step.pending_sublist (hstep : Step throttle d a e)
    (h : d.queue.pending.Sublist d.accepted) : e.queue.pending.Sublist e.accepted := by
  cases hstep.queueStep with
  | still hpending _ haccepted => rwa [hpending, haccepted]
  | accepted _ _ hpending _ haccepted =>
    rw [hpending, haccepted]
    exact h.append_right _
  | popped _ _ hfirst _ haccepted =>
    obtain ⟨front, back, hsplit, hrest, -, -⟩ := Ticket.takeFirst_eq_some hfirst
    rw [haccepted, hrest]
    refine List.Sublist.trans ?_ h
    rw [hsplit]
    exact (List.sublist_cons_self _ _).append_left front

theorem pending_sublist_of_run (hrun : idle.performAll throttle as = some d) :
    d.queue.pending.Sublist d.accepted :=
  run_induction (fun _ d => d.queue.pending.Sublist d.accepted) (List.Sublist.refl _)
    (fun _ ih hstep => hstep.pending_sublist ih) hrun

theorem pending_pairwise_of_run (hrun : idle.performAll throttle as = some d) :
    d.queue.pending.Pairwise fun a b => a.sequence < b.sequence :=
  (accepted_pairwise_of_run hrun).sublist (pending_sublist_of_run hrun)

/-! ## One priority is served in the order of acceptance -/

/-- What was popped and what is pending of each priority, in order, is what was accepted. -/
def InOrder (d : Drainage) : Prop :=
  ∀ p, d.popped.filter (Ticket.has p) ++ d.queue.pending.filter (Ticket.has p) =
    d.accepted.filter (Ticket.has p)

theorem Step.inOrder (hstep : Step throttle d a e)
    (hpending : d.queue.pending.Pairwise fun a b => a.sequence < b.sequence)
    (h : d.InOrder) : e.InOrder := by
  intro p
  have hp := h p
  unfold popped at hp ⊢
  cases hstep.queueStep with
  | still hsame _ haccepted htaken => rw [hsame, haccepted, htaken, hp]
  | accepted _ _ hnew _ haccepted htaken =>
    rw [hnew, haccepted, htaken, List.filter_append, List.filter_append, ← hp, List.append_assoc]
  | @popped i t _ _ hfirst _ haccepted htaken =>
    rw [haccepted, htaken, List.map_append, List.filter_append, List.append_assoc, ← hp,
      Ticket.filter_of_takeFirst hpending hfirst p]
    rfl

theorem inOrder_of_run (hrun : idle.performAll throttle as = some d) : d.InOrder :=
  run_induction (fun _ d => d.InOrder) (fun _ => rfl)
    (fun hmid ih hstep => hstep.inOrder (pending_pairwise_of_run hmid) ih) hrun

/-! ## A batch is served in its stable sort -/

/-- What was popped stands in the order of service, before all that is pending. -/
structure Sorted (d : Drainage) : Prop where
  popped : d.popped.Pairwise fun a b => a.precedes b = true
  before : ∀ a ∈ d.popped, ∀ b ∈ d.queue.pending, a.precedes b = true

theorem Step.accepted_prefix (hstep : Step throttle d a e) : d.accepted <+: e.accepted :=
  hstep.told_prefix _

theorem Step.sorted (hstep : Step throttle d a e)
    (hpending : d.queue.pending.Pairwise fun a b => a.sequence < b.sequence)
    (haccepted : e.accepted = d.accepted) (h : d.Sorted) : e.Sorted := by
  obtain ⟨hpopped, hbefore⟩ := h
  unfold popped at hpopped hbefore
  cases hstep.queueStep with
  | still hsame _ _ htaken =>
    refine ⟨?_, ?_⟩
    · rwa [popped, htaken]
    · rwa [popped, htaken, hsame]
  | accepted _ _ _ _ hnew => simp [hnew] at haccepted
  | @popped i t _ _ hfirst _ _ htaken =>
    have hmem : ∀ b ∈ t :: e.queue.pending, b ∈ d.queue.pending := fun b hb =>
      (Ticket.takeFirst_perm hfirst).symm.subset hb
    refine ⟨?_, fun b hb c hc => ?_⟩
    · rw [popped, htaken, List.map_append, List.pairwise_append]
      refine ⟨hpopped, List.pairwise_singleton _ _, fun b hb c hc => ?_⟩
      obtain rfl : c = t := List.mem_singleton.mp hc
      exact hbefore b hb c (hmem c List.mem_cons_self)
    · rw [popped, htaken, List.map_append] at hb
      obtain hb | hb := List.mem_append.mp hb
      · exact hbefore b hb c (hmem c (List.mem_cons_of_mem _ hc))
      · obtain rfl : b = t := List.mem_singleton.mp hb
        exact Ticket.precedes_of_takeFirst hpending hfirst c hc

/-- As long as nothing more is accepted, a batch is popped in the order of service. -/
theorem sorted_of_run (hrun : idle.performAll throttle as = some d) (hnone : d.popped = [])
    (hlater : d.performAll throttle bs = some e) (haccepted : e.accepted = d.accepted) :
    e.Sorted := by
  obtain ⟨-, hsorted⟩ : d.accepted <+: e.accepted ∧ (e.accepted = d.accepted → e.Sorted) := by
    refine run_induction
      (fun _ e => d.accepted <+: e.accepted ∧ (e.accepted = d.accepted → e.Sorted))
      ⟨List.prefix_rfl, fun _ => ⟨by simp [hnone], by simp [hnone]⟩⟩
      (fun {bs e f a} hmid ih hstep => ?_) hlater
    obtain ⟨hgrown, hsorted⟩ := ih
    refine ⟨hgrown.trans hstep.accepted_prefix, fun hsame => ?_⟩
    have hmiddle : e.accepted = d.accepted :=
      (hgrown.eq_of_length_le (hsame ▸ hstep.accepted_prefix.length_le)).symm
    have hall : idle.performAll throttle (as ++ bs) = some e := by
      rw [performAll_append, hrun, Option.bind_some, hmid]
    exact hstep.sorted (pending_pairwise_of_run hall) (hsame.trans hmiddle.symm)
      (hsorted hmiddle)
  exact hsorted haccepted

/-- What was popped of a batch, and then what is left of it in its stable sort, is the
stable sort of the batch. -/
theorem Sorted.mergeSort_eq (h : d.Sorted) (hrun : idle.performAll throttle as = some d) :
    d.popped ++ d.queue.pending.mergeSort Ticket.asUrgent =
      d.accepted.mergeSort Ticket.asUrgent := by
  have hasymm : ∀ a b : Ticket, a ∈ d.popped ++ d.queue.pending.mergeSort Ticket.asUrgent →
      b ∈ d.accepted.mergeSort Ticket.asUrgent → a.precedes b = true → b.precedes a = true →
        a = b := fun _ _ _ _ hab hba => (Ticket.not_precedes_both hab hba).elim
  refine List.Perm.eq_of_pairwise hasymm ?_
    (Ticket.pairwise_precedes_mergeSort (accepted_pairwise_of_run hrun)) ?_
  · refine List.pairwise_append.mpr ⟨h.popped, ?_, fun a ha b hb => ?_⟩
    · exact Ticket.pairwise_precedes_mergeSort (pending_pairwise_of_run hrun)
    · exact h.before a ha b (List.mem_mergeSort.mp hb)
  · have hperm := (accepted_perm_of_run hrun).trans List.perm_append_comm
    refine ((List.mergeSort_perm _ _).append_left _).trans ?_
    exact hperm.symm.trans (List.mergeSort_perm _ _).symm

/-! ## The order of a run -/

/-- A request that is popped while another is pending goes before it. -/
theorem precedes_of_pop (hrun : idle.performAll throttle as = some d)
    (hstep : Step throttle d a e) {t : Ticket} (hpop : e.popped = d.popped ++ [t]) :
    ∀ b ∈ d.queue.pending, b ≠ t →
      t.request.priority.rank < b.request.priority.rank ∨
        (t.request.priority = b.request.priority ∧ [t, b].Sublist d.accepted) := by
  unfold popped at hpop
  cases hstep.queueStep with
  | still _ _ _ htaken => simp [htaken] at hpop
  | accepted _ _ _ _ _ htaken => simp [htaken] at hpop
  | @popped i u _ _ hfirst _ _ htaken =>
    obtain rfl : u = t := by simpa [htaken] using hpop
    intro b hb hne
    have hpending := pending_pairwise_of_run hrun
    have hsublist := pending_sublist_of_run hrun
    obtain ⟨front, back, hsplit, -, hfront, hback⟩ := Ticket.takeFirst_eq_some hfirst
    rw [hsplit] at hb hpending hsublist
    obtain hb | hb := List.mem_append.mp hb
    · -- What came earlier is left behind for its priority alone.
      have hlt : b.sequence < u.sequence :=
        (List.pairwise_append.mp hpending).2.2 b hb u List.mem_cons_self
      have hfirst := hfront b hb
      rw [Ticket.precedes_iff] at hfirst
      exact Or.inl (by omega)
    · have hb : b ∈ back := (List.mem_cons.mp hb).resolve_left hne
      have hlater : [u, b].Sublist (front ++ u :: back) :=
        ((List.singleton_sublist.mpr hb).cons_cons u).trans (List.sublist_append_right _ _)
      have hlt : u.sequence < b.sequence :=
        List.rel_of_pairwise_cons (List.pairwise_append.mp hpending).2.1 hb
      have hnot := hback b hb
      rw [Ticket.not_precedes_iff (Nat.ne_of_gt hlt), Ticket.precedes_iff] at hnot
      obtain hrank | ⟨hrank, -⟩ := hnot
      · exact Or.inl hrank
      · exact Or.inr ⟨Ticket.rank_injective hrank, hlater.trans hsublist⟩

/-- In every run, what is popped goes before all that is pending then: it has a stronger
priority, or the same one and was accepted earlier.  So the requests of one priority are
popped in the order of acceptance, and a batch that was accepted before the first pop,
with nothing accepted later, is popped in its stable sort by priority. -/
theorem served_in_order {throttle : Nat} {as : List Act} {d : Drainage}
    (hrun : idle.performAll throttle as = some d) :
    (∀ a e t, d.perform throttle a = some e → e.popped = d.popped ++ [t] →
      ∀ b ∈ d.queue.pending, b ≠ t →
        t.request.priority.rank < b.request.priority.rank ∨
          (t.request.priority = b.request.priority ∧ [t, b].Sublist d.accepted)) ∧
      (∀ p, d.popped.filter (Ticket.has p) <+: d.accepted.filter (Ticket.has p)) ∧
      (d.popped = [] → ∀ bs e, d.performAll throttle bs = some e → e.accepted = d.accepted →
        e.popped ++ e.queue.pending.mergeSort Ticket.asUrgent =
          d.accepted.mergeSort Ticket.asUrgent) := by
  refine ⟨fun a e t hperform hpop => precedes_of_pop hrun (step_of_perform hperform) hpop,
    fun p => ?_, fun hnone bs e hlater haccepted => ?_⟩
  · rw [← inOrder_of_run hrun p]
    exact List.prefix_append _ _
  · have hall : idle.performAll throttle (as ++ bs) = some e := by
      rw [performAll_append, hrun, Option.bind_some, hlater]
    rw [(sorted_of_run hrun hnone hlater haccepted).mergeSort_eq hall, haccepted]

/-- A batch of three requests, the least urgent first. -/
def batchRun : List Act :=
  let request (p : Priority) : Act := .enqueue ⟨.zero, .standard, p⟩ true
  [request .low, request .normal, request .high]

/-- A task that takes three requests, none of whose items exists. -/
def skippingRun : List Act :=
  let turn : List Act := [.move 0 .check, .move 0 .take, .move 0 (.resolve none)]
  turn ++ turn ++ turn

theorem batchRun_in_order :
    ∃ d e, idle.performAll 0 batchRun = some d ∧ d.popped = [] ∧
      d.performAll 0 skippingRun = some e ∧ e.accepted = d.accepted ∧
      e.popped.map (fun t => t.request.priority) = [.high, .normal, .low] ∧
      e.popped = d.accepted.mergeSort Ticket.asUrgent := by
  obtain ⟨-, -, hbatch⟩ := @served_in_order 0 batchRun _ rfl
  have hsorted := hbatch rfl skippingRun _ rfl rfl
  refine ⟨_, _, rfl, rfl, rfl, rfl, rfl, ?_⟩
  simpa using hsorted

end Drainage

end MediaRefresh
