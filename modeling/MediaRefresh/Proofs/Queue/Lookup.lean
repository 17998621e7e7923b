import MediaRefresh.Proofs.Queue.Conservation

/-!
# Queue: looking up the items of requests

A task looks up the item of every request that it takes, once and before its wait.  The refresh
starts with what was found then, no sooner than the throttle later; a request whose item was not
found is skipped at once.
-/

set_option autoImplicit false

namespace MediaRefresh

open Drainage

/-- A lookup of the item of a request. -/
structure Lookup where
  moment : Nat
  ticket : Ticket
  /-- the item, if it was found -/
  found : Option Item
  deriving DecidableEq

/-- The ticket that a task has taken and whose item it has yet to look up. -/
def DrainTask.unresolved? : DrainTask → Option Ticket
  | holding t => some t
  | _ => none

namespace Drainage

variable {throttle : Nat} {a : Act} {d e : Drainage} {i : Nat} {t : Ticket}

/-! ## How tasks come to wait and to refresh -/

/-- After one more step the only live task is the one that has moved. -/
theorem Exclusive.live_of_set {t u v : DrainTask} {j : Nat} (h : d.Exclusive)
    (ht : d.tasks[i]? = some t) (hlive : t.live = true) (htasks : e.tasks = d.tasks.set i u)
    (hv : e.tasks[j]? = some v) (hlive' : v.live = true) : i = j ∧ u = v := by
  rw [htasks] at hv
  by_cases hij : i = j
  · subst hij
    rw [task_set ht] at hv
    exact ⟨rfl, Option.some.inj hv⟩
  · rw [List.getElem?_set_ne hij] at hv
    exact absurd (h.live_unique ht hlive hv hlive').1 hij

/-- How a task comes to wait: it has held the request, or it has waited before and nothing but
an acceptance has been logged. -/
theorem Step.comes_to_wait {item : Item} {wakeAt : Nat} (hstep : Step throttle d a e)
    (hexclusive : d.Exclusive) (h : e.tasks[i]? = some (.waiting t item wakeAt)) :
    (a = .move i (.resolve (some item)) ∧ d.tasks[i]? = some (.holding t) ∧
        wakeAt = d.clock + throttle ∧ e.log = d.log) ∨
      (d.tasks[i]? = some (.waiting t item wakeAt) ∧
        (e.log = d.log ∨ ∃ u, e.log = (d.clock, .accepted u) :: d.log)) := by
  have hmoved {j : Nat} {u v : DrainTask} (hu : d.tasks[j]? = some u) (hlive : u.live = true)
      (htasks : e.tasks = d.tasks.set j v) : j = i ∧ v = .waiting t item wakeAt :=
    hexclusive.live_of_set hu hlive htasks h rfl
  cases hstep with
  | accept => exact Or.inr ⟨h, Or.inr ⟨_, rfl⟩⟩
  | start =>
    rw [tasks_startTask, tasks_accept, List.getElem?_append] at h
    split at h
    · exact Or.inr ⟨h, Or.inr ⟨_, rfl⟩⟩
    · simp [List.getElem?_singleton] at h
  | resolve j u found hu =>
    obtain ⟨rfl, hv⟩ := hmoved hu rfl rfl
    cases hv
    exact Or.inl ⟨rfl, hu, rfl, rfl⟩
  | halt j hu => nomatch (hmoved hu rfl rfl).2
  | proceed j hu => nomatch (hmoved hu rfl rfl).2
  | pop j hu => nomatch (hmoved hu rfl rfl).2
  | exhaust j hu => nomatch (hmoved hu rfl rfl).2
  | skip j u hu => nomatch (hmoved hu rfl rfl).2
  | wake j u found at_ hu => nomatch (hmoved hu rfl rfl).2
  | abandon j u found at_ hu => nomatch (hmoved hu rfl rfl).2
  | finish j u found ending hu => nomatch (hmoved hu rfl rfl).2
  | quit j u found hu => nomatch (hmoved hu rfl rfl).2
  | leave j hu => nomatch (hmoved hu rfl rfl).2
  | _ => exact Or.inr ⟨h, Or.inl rfl⟩

/-- How a task comes to refresh: it has waited, and its start has been logged. -/
theorem Step.comes_to_refresh {item : Item} (hstep : Step throttle d a e)
    (hexclusive : d.Exclusive) (h : e.tasks[i]? = some (.refreshing t item)) :
    d.tasks[i]? = some (.refreshing t item) ∨ (d.clock, .started t item) ∈ e.log := by
  have hmoved {j : Nat} {u v : DrainTask} (hu : d.tasks[j]? = some u) (hlive : u.live = true)
      (htasks : e.tasks = d.tasks.set j v) : j = i ∧ v = .refreshing t item :=
    hexclusive.live_of_set hu hlive htasks h rfl
  cases hstep with
  | start =>
    rw [tasks_startTask, tasks_accept, List.getElem?_append] at h
    split at h
    · exact Or.inl h
    · simp [List.getElem?_singleton] at h
  | wake j u found at_ hu =>
    obtain ⟨rfl, hv⟩ := hmoved hu rfl rfl
    cases hv
    exact Or.inr List.mem_cons_self
  | halt j hu => nomatch (hmoved hu rfl rfl).2
  | proceed j hu => nomatch (hmoved hu rfl rfl).2
  | pop j hu => nomatch (hmoved hu rfl rfl).2
  | exhaust j hu => nomatch (hmoved hu rfl rfl).2
  | resolve j u found hu => nomatch (hmoved hu rfl rfl).2
  | skip j u hu => nomatch (hmoved hu rfl rfl).2
  | abandon j u found at_ hu => nomatch (hmoved hu rfl rfl).2
  | finish j u found ending hu => nomatch (hmoved hu rfl rfl).2
  | quit j u found hu => nomatch (hmoved hu rfl rfl).2
  | leave j hu => nomatch (hmoved hu rfl rfl).2
  | _ => exact Or.inl h

/-- What a step logs of the start of a refresh or of an item that was not found. -/
theorem Step.logs_of_items (hstep : Step throttle d a e) {v : Nat} {line : LogEntry}
    (h : (v, line) ∈ e.log) :
    (v, line) ∈ d.log ∨ v = d.clock ∧
      match line with
      | .started t item => ∃ (i wakeAt : Nat),
          d.tasks[i]? = some (.waiting t item wakeAt) ∧ wakeAt ≤ d.clock
      | .skipped t => ∃ i, a = .move i (.resolve none) ∧ d.tasks[i]? = some (.holding t)
      | _ => True := by
  cases hstep with
  | wake j u found at_ hu hdue =>
    obtain hline | hline := List.mem_cons.mp h
    · obtain ⟨rfl, rfl⟩ := Prod.mk.inj hline
      exact Or.inr ⟨rfl, j, at_, hu, hdue⟩
    · exact Or.inl hline
  | skip j u hu =>
    obtain hline | hline := List.mem_cons.mp h
    · obtain ⟨rfl, rfl⟩ := Prod.mk.inj hline
      exact Or.inr ⟨rfl, j, rfl, hu⟩
    · exact Or.inl hline
  | _ =>
    -- every other step logs nothing, or a line that tells of neither
    first
    | exact Or.inl h
    | obtain hline | hline := List.mem_cons.mp h
      · obtain ⟨rfl, rfl⟩ := Prod.mk.inj hline
        exact Or.inr ⟨rfl, trivial⟩
      · exact Or.inl hline

/-! ## Every request that is taken is looked up once -/

/-- The lookup that a step makes. -/
def looks (d : Drainage) : Act → List Lookup
  | .move i (.resolve found) =>
    match d.tasks[i]? with
    | some (.holding t) => [⟨d.clock, t, found⟩]
    | _ => []
  | _ => []

theorem looks_of_holding (ht : d.tasks[i]? = some (.holding t)) (found : Option Item) :
    d.looks (.move i (.resolve found)) = [⟨d.clock, t, found⟩] := by
  simp only [looks, ht]

/-- What has been taken from a queue was looked up in turn, and what has become of it since is
what the lookups `ls` say. -/
structure Heeds (throttle : Nat) (d : Drainage) (ls : List Lookup) : Prop where
  taken : d.popped = ls.map Lookup.ticket ++ d.standing DrainTask.unresolved?
  waits : ∀ (i : Nat) t item wakeAt, d.tasks[i]? = some (.waiting t item wakeAt) →
    ∃ moment, ⟨moment, t, some item⟩ ∈ ls ∧ wakeAt = moment + throttle
  refreshes : ∀ (i : Nat) t item, d.tasks[i]? = some (.refreshing t item) →
    ∃ moment, (moment, .started t item) ∈ d.log
  started : ∀ v t item, (v, .started t item) ∈ d.log →
    ∃ moment, ⟨moment, t, some item⟩ ∈ ls ∧ moment + throttle ≤ v
  skipped : ∀ v t, (v, .skipped t) ∈ d.log → ⟨v, t, none⟩ ∈ ls

theorem heeds_idle : idle.Heeds throttle [] where
  taken := rfl
  waits i t item wakeAt h := by simp [idle] at h
  refreshes i t item h := by simp [idle] at h
  started v t item h := by simp [idle] at h
  skipped v t h := by simp [idle] at h

variable {ls : List Lookup}

theorem Step.taken_looked_up (hstep : Step throttle d a e) (hexclusive : d.Exclusive)
    (h : d.popped = ls.map Lookup.ticket ++ d.standing DrainTask.unresolved?) :
    e.popped = (ls ++ d.looks a).map Lookup.ticket ++ e.standing DrainTask.unresolved? := by
  have hstill (hlooks : d.looks a = []) (hpopped : e.popped = d.popped)
      (hstands : e.standing DrainTask.unresolved? = d.standing DrainTask.unresolved?) :
      e.popped = (ls ++ d.looks a).map Lookup.ticket ++ e.standing DrainTask.unresolved? := by
    rw [hlooks, List.append_nil, hpopped, hstands, h]
  have hbefore {j : Nat} {t : DrainTask} (ht : d.tasks[j]? = some t) (hlive : t.live = true) :
      d.standing DrainTask.unresolved? = t.unresolved?.toList :=
    hexclusive.standing_eq rfl ht hlive
  have hafter {j : Nat} {t u : DrainTask} (ht : d.tasks[j]? = some t) (hlive : t.live = true)
      (htasks : e.tasks = d.tasks.set j u) :
      e.standing DrainTask.unresolved? = u.unresolved?.toList :=
    hexclusive.standing_set rfl ht hlive htasks
  cases hstep with
  | accept => exact hstill rfl (by simp [popped]) rfl
  | start => exact hstill rfl (by simp [popped]) (standing_startTask _ rfl)
  | pop j hj u rest hfirst =>
    rw [hbefore hj rfl] at h
    rw [hafter hj rfl rfl]
    simpa [popped, looks, DrainTask.unresolved?] using h
  | resolve j u item hj =>
    rw [hbefore hj rfl] at h
    rw [hafter hj rfl rfl, looks_of_holding hj]
    simpa [popped, DrainTask.unresolved?] using h
  | skip j u hj =>
    rw [hbefore hj rfl] at h
    rw [hafter hj rfl rfl, looks_of_holding hj]
    simpa [popped, DrainTask.unresolved?] using h
  | halt j hj => exact hstill rfl rfl ((hafter hj rfl rfl).trans (hbefore hj rfl).symm)
  | proceed j hj => exact hstill rfl rfl ((hafter hj rfl rfl).trans (hbefore hj rfl).symm)
  | exhaust j hj => exact hstill rfl rfl ((hafter hj rfl rfl).trans (hbefore hj rfl).symm)
  | wake j u item wakeAt hj =>
    exact hstill rfl (by simp [popped]) ((hafter hj rfl rfl).trans (hbefore hj rfl).symm)
  | abandon j u item wakeAt hj =>
    exact hstill rfl (by simp [popped]) ((hafter hj rfl rfl).trans (hbefore hj rfl).symm)
  | finish j u item ending hj =>
    exact hstill rfl (by simp [popped]) ((hafter hj rfl rfl).trans (hbefore hj rfl).symm)
  | quit j u item hj =>
    exact hstill rfl (by simp [popped]) ((hafter hj rfl rfl).trans (hbefore hj rfl).symm)
  | leave j hj => exact hstill rfl rfl ((hafter hj rfl rfl).trans (hbefore hj rfl).symm)
  | _ => exact hstill rfl rfl rfl

theorem Step.heeds (hstep : Step throttle d a e) (hexclusive : d.Exclusive)
    (h : d.Heeds throttle ls) : e.Heeds throttle (ls ++ d.looks a) where
  taken := hstep.taken_looked_up hexclusive h.taken
  waits i t item wakeAt ht := by
    obtain ⟨rfl, hheld, rfl, -⟩ | ⟨hwaits, -⟩ := hstep.comes_to_wait hexclusive ht
    · refine ⟨d.clock, List.mem_append_right _ ?_, rfl⟩
      rw [looks_of_holding hheld]
      exact List.mem_singleton_self _
    · obtain ⟨moment, hmem, hat⟩ := h.waits i t item wakeAt hwaits
      exact ⟨moment, List.mem_append_left _ hmem, hat⟩
  refreshes i t item ht := by
    obtain hrefreshes | hlogged := hstep.comes_to_refresh hexclusive ht
    · obtain ⟨moment, hmem⟩ := h.refreshes i t item hrefreshes
      exact ⟨moment, hstep.log_suffix.subset hmem⟩
    · exact ⟨_, hlogged⟩
  started v t item hline := by
    obtain hbefore | ⟨rfl, i, wakeAt, hwaits, hdue⟩ := hstep.logs_of_items hline
    · obtain ⟨moment, hmem, hago⟩ := h.started v t item hbefore
      exact ⟨moment, List.mem_append_left _ hmem, hago⟩
    · obtain ⟨moment, hmem, rfl⟩ := h.waits i t item wakeAt hwaits
      exact ⟨moment, List.mem_append_left _ hmem, hdue⟩
  skipped v t hline := by
    obtain hbefore | ⟨rfl, i, rfl, hheld⟩ := hstep.logs_of_items hline
    · exact List.mem_append_left _ (h.skipped v t hbefore)
    · refine List.mem_append_right _ ?_
      rw [looks_of_holding hheld]
      exact List.mem_singleton_self _

end Drainage

end MediaRefresh
