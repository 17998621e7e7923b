import MediaRefresh.Queue.Basic

/-!
# Queue: which ticket is served first

`Ticket.precedes` is a strict order by rank and then by place in sequence.
`Ticket.takeFirst` removes a ticket that no other one precedes; of tickets that
stand in the order of their sequence, it is the first of its priority.
-/

set_option autoImplicit false

namespace MediaRefresh

namespace Ticket

/-! ## The order of service -/

theorem precedes_iff {a b : Ticket} :
    a.precedes b = true ↔
      a.request.priority.rank < b.request.priority.rank ∨
        (a.request.priority.rank = b.request.priority.rank ∧ a.sequence < b.sequence) := by
  unfold precedes urgency
  rw [beq_iff_eq, Ordering.then_eq_gt, Nat.compare_eq_gt, Nat.compare_eq_eq, Nat.compare_eq_gt,
    eq_comm (a := b.request.priority.rank)]

theorem rank_injective {p q : Priority} (h : p.rank = q.rank) : p = q := by
  cases p <;> cases q <;> simp_all [Priority.rank]

/-- Nothing precedes what precedes it, and of two tickets with different places one
precedes the other. -/
theorem not_precedes_iff {a b : Ticket} (h : a.sequence ≠ b.sequence) :
    ¬ a.precedes b = true ↔ b.precedes a = true := by
  rw [precedes_iff, precedes_iff]
  omega

/-! ## Taking the first -/

theorem takeFirst_eq_none_iff {ts : List Ticket} : takeFirst ts = none ↔ ts = [] := by
  cases ts with
  | nil => simp [takeFirst]
  | cons t rest =>
    simp only [takeFirst, reduceCtorEq, iff_false]
    split
    · simp
    · split <;> simp

/-- What is taken goes before everything in front of it, and nothing behind it goes
before it. -/
theorem takeFirst_eq_some {ts rest : List Ticket} {t : Ticket}
    (h : takeFirst ts = some (t, rest)) :
    ∃ front back, ts = front ++ t :: back ∧ rest = front ++ back ∧
      (∀ b ∈ front, t.precedes b = true) ∧ ∀ b ∈ back, ¬ b.precedes t = true := by
  induction ts generalizing t rest with
  | nil => simp [takeFirst] at h
  | cons head tail ih =>
    unfold takeFirst at h
    cases hbest : takeFirst tail with
    | none =>
      obtain rfl := takeFirst_eq_none_iff.mp hbest
      simp only [hbest, Option.some.injEq, Prod.mk.injEq] at h
      obtain ⟨rfl, rfl⟩ := h
      exact ⟨[], [], rfl, rfl, by simp, by simp⟩
    | some found =>
      obtain ⟨best, others⟩ := found
      obtain ⟨front, back, hsplit, hothers, hfront, hback⟩ := ih hbest
      simp only [hbest] at h
      split at h
      · rename_i hprecedes
        simp only [Option.some.injEq, Prod.mk.injEq] at h
        obtain ⟨rfl, rfl⟩ := h
        refine ⟨head :: front, back, by simp [hsplit], by simp [hothers], ?_, hback⟩
        intro b hb
        obtain rfl | hb := List.mem_cons.mp hb
        · exact hprecedes
        · exact hfront b hb
      · rename_i hprecedes
        simp only [Option.some.injEq, Prod.mk.injEq] at h
        obtain ⟨rfl, rfl⟩ := h
        refine ⟨[], tail, rfl, rfl, by simp, ?_⟩
        -- The best of the tail does not go before the head, and the rest of the tail
        -- does not go before the best.
        intro b hb hbefore
        rw [precedes_iff] at hprecedes hbefore
        rw [hsplit, List.mem_append, List.mem_cons] at hb
        obtain hb | rfl | hb := hb
        · have hbest_first := hfront b hb
          rw [precedes_iff] at hbest_first
          omega
        · exact hprecedes hbefore
        · have hbest_first := hback b hb
          rw [precedes_iff] at hbest_first
          omega

/-- Taking the first loses nothing. -/
theorem takeFirst_perm {ts rest : List Ticket} {t : Ticket} (h : takeFirst ts = some (t, rest)) :
    ts.Perm (t :: rest) := by
  obtain ⟨front, back, rfl, rfl, -, -⟩ := takeFirst_eq_some h
  exact List.perm_middle

end Ticket

end MediaRefresh
