import MediaRefresh.Proofs.Queue.Lookup
import MediaRefresh.Proofs.Refresh.Protection
import MediaRefresh.Proofs.Session.Run

/-!
# Sessions: which state of an item a queued refresh works on

The outside may change between any two steps of the drain task.  A queued refresh works on the
item as the library held it when its request was looked up, behind the taking of the request and
before the wait; what happens to the item during the wait is not seen.
-/

set_option autoImplicit false

namespace MediaRefresh

open RefreshM

variable {σ : Type}

/-! ## What a refresh makes of its copy of an item -/

/-- The item with what a refresh gathers, and with the time of the refresh, from another. -/
def Item.withGatheredOf (item other : Item) : Item :=
  { item.withMetadataOf other with
    images := other.images
    lastRefreshed := other.lastRefreshed }

/-- Every item that a refresh shows to anyone, and so what it writes back, is the copy that it
was given with other metadata, images and time of refresh. -/
theorem Manager.refreshByProviders_shows_copy (m : Manager σ) (item : Item)
    (options : RefreshOptions) :
    Writes (fun e => ∀ i ∈ e.item?, i = item.withGatheredOf i)
      (m.refreshByProviders item options) := by
  refine m.refreshByProviders_shows (fun now hrevised => ?_) (fun now _ => ?_)
    fun i moment hcopy => ?_
  · have hmetadata := hrevised.1
    rw [Item.withGatheredOf, ← hmetadata]
  · intro state p _ shown i image _ hcopy _
    exact congrArg (Item.setImage · image) hcopy
  · exact congrArg (fun i : Item => { i with lastRefreshed := moment }) hcopy

/-! ## Lookups of a run -/

theorem Act.looks_of_silent {a : Act} (h : a.silent = true) (d : Drainage) : d.looks a = [] := by
  cases a with
  | move i m =>
    cases m with
    | resolve found => cases h
    | _ => rfl
  | _ => rfl

namespace Drainage

variable {throttle : Nat} {d e : Drainage} {ls : List Lookup}

/-- Silent steps look nothing up. -/
theorem Passes.heeds (h : d.Passes throttle e) (hexclusive : d.Exclusive)
    (hheeds : d.Heeds throttle ls) : e.Exclusive ∧ e.Heeds throttle ls := by
  induction h with
  | refl => exact ⟨hexclusive, hheeds⟩
  | step first silent _ ih =>
    have hstep := step_of_perform first
    have hnext := hstep.heeds hexclusive hheeds
    rw [Act.looks_of_silent silent, List.append_nil] at hnext
    exact ih (hstep.exclusive hexclusive) hnext

end Drainage

namespace Session

variable {s : Session σ} {a : SessionAct σ} {e : Drainage} {ls : List Lookup}

theorem Effect.heeds (h : s.Effect a e) (hexclusive : s.drainage.Exclusive)
    (hheeds : s.drainage.Heeds s.throttle ls) :
    e.Exclusive ∧ e.Heeds s.throttle (ls ++ (s.lookup? a).toList) := by
  cases h with
  | asked r inRuntime step =>
    have hstep := Drainage.step_of_perform step
    exact ⟨hstep.exclusive hexclusive, hstep.heeds hexclusive hheeds⟩
  | closed step =>
    have hstep := Drainage.step_of_perform step
    exact ⟨hstep.exclusive hexclusive, hstep.heeds hexclusive hheeds⟩
  | @lookedUp e i moment t current step =>
    have hstep := Drainage.step_of_perform step
    have hlookup : s.lookup? (.turn moment) =
        some ⟨s.drainage.clock, t, s.item? t.request.item⟩ := by simp [lookup?, current]
    have hnext := hstep.heeds hexclusive hheeds
    rw [Drainage.looks_of_holding (Drainage.getElem?_of_current current)] at hnext
    rw [hlookup]
    exact ⟨hstep.exclusive hexclusive, hnext⟩
  | silent asks closes looks passes =>
    rw [looks, Option.toList_none, List.append_nil]
    exact passes.heeds hexclusive hheeds

theorem heeds_performAll (s : Session σ) (as : List (SessionAct σ))
    (hexclusive : s.drainage.Exclusive) (hheeds : s.drainage.Heeds s.throttle ls) :
    (s.performAll as).drainage.Heeds s.throttle (ls ++ s.lookups as) := by
  induction as generalizing s ls with
  | nil => simpa [performAll, lookups] using hheeds
  | cons a rest ih =>
    obtain ⟨hexclusive', hheeds'⟩ := (s.effect a).heeds hexclusive hheeds
    have hthrottle : (s.perform a).throttle = s.throttle :=
      congrArg (fun m => m.config.throttle) (s.manager_perform a)
    rw [← hthrottle] at hheeds' ⊢
    rw [performAll_cons, lookups, ← List.append_assoc]
    exact ih (s.perform a) hexclusive' hheeds'

theorem lookup_eq_some {l : Lookup} (h : s.lookup? a = some l) :
    (∃ moment, a = .turn moment) ∧ l.moment = s.drainage.clock ∧
      l.found = s.item? l.ticket.request.item := by
  unfold lookup? at h
  split at h
  · split at h
    · obtain rfl := Option.some.inj h
      exact ⟨⟨_, rfl⟩, rfl, rfl⟩
    · cases h
  · cases h

/-- A lookup of a run is the answer of the library at a turn of the drain task. -/
theorem mem_lookups {l : Lookup} {as : List (SessionAct σ)} (h : l ∈ s.lookups as) :
    ∃ before moment behind, as = before ++ .turn moment :: behind ∧
      l.moment = (s.performAll before).drainage.clock ∧
      l.found = (s.performAll before).item? l.ticket.request.item := by
  induction as generalizing s with
  | nil => cases h
  | cons a rest ih =>
    obtain hfirst | hlater := List.mem_append.mp h
    · obtain ⟨⟨moment, rfl⟩, hclock, hfound⟩ := lookup_eq_some (Option.mem_toList.mp hfirst)
      exact ⟨[], moment, rest, rfl, hclock, hfound⟩
    · obtain ⟨before, moment, behind, rfl, hclock, hfound⟩ := ih hlater
      exact ⟨a :: before, moment, behind, rfl, hclock, hfound⟩

/-- What becomes in a run of the requests that the drain task takes.  Each is looked up once,
before anything else is done with it.  A request whose item the library held then is refreshed
with that very item, no sooner than the throttle later; one whose item was gone is not refreshed.
What a refresh by the providers writes back is the item it was given, but for what it gathers. -/
theorem refreshed_as_looked_up (m : Manager σ) (state : σ) (as : List (SessionAct σ)) :
    let s := (fresh m state).performAll as
    let ls := (fresh m state).lookups as
    (∀ l ∈ ls, ∃ before moment behind, as = before ++ .turn moment :: behind ∧
      l.moment = ((fresh m state).performAll before).drainage.clock ∧
      l.found = ((fresh m state).performAll before).item? l.ticket.request.item) ∧
    s.drainage.popped = ls.map Lookup.ticket ++ s.drainage.standing DrainTask.unresolved? ∧
    (ls.map Lookup.ticket).Nodup ∧
    (∀ v t item, (v, .started t item) ∈ s.drainage.log →
      ∃ moment, ⟨moment, t, some item⟩ ∈ ls ∧ moment + m.config.throttle ≤ v) ∧
    (∀ moment t, ⟨moment, t, none⟩ ∈ ls → t ∉ s.drainage.started) ∧
    (∀ r, s.shift.handed? m m.config.throttle = some r →
      ∃ v, (v, .started r.ticket r.item) ∈ s.drainage.log) ∧
    ∀ item options w, ∃ lines,
      (World.after (m.refreshByProviders item options w)).journal = w.journal ++ lines ∧
        ∀ e ∈ lines, ∀ i ∈ e.item?, i = item.withGatheredOf i := by
  intro s ls
  have hheeds : s.drainage.Heeds m.config.throttle ls :=
    (fresh m state).heeds_performAll as Drainage.exclusive_idle Drainage.heeds_idle
  have hnodup : (ls.map Lookup.ticket).Nodup := by
    obtain ⟨bs, hbs⟩ := drainage_reached m state as
    have hdifferent : (s.drainage.queue.pending ++ s.drainage.popped).Nodup :=
      (Drainage.accepted_perm_of_run hbs).nodup_iff.mp (Drainage.accepted_nodup_of_run hbs)
    have hpopped := hdifferent.of_append_right
    rw [hheeds.taken] at hpopped
    exact hpopped.of_append_left
  refine ⟨fun l hl => mem_lookups hl, hheeds.taken, hnodup, hheeds.started, ?_, ?_, ?_⟩
  · intro moment t hnone hstarted
    obtain ⟨v, item, hline⟩ := Drainage.mem_started.mp hstarted
    obtain ⟨moment', hsome, -⟩ := hheeds.started v t item hline
    cases List.inj_on_of_nodup_map hnodup hnone hsome rfl
  · intro r hhanded
    obtain ⟨i, hi⟩ := Shift.task_of_handed hhanded
    exact hheeds.refreshes i _ _ hi
  · exact fun item options w => (m.refreshByProviders_shows_copy item options).adds w

/-! ## A film renamed during the wait -/

/-- A film is renamed while the drain task waits before its refresh. -/
def renamedWhileWaiting : List (SessionAct Rehearsal.Stage) :=
  [.announce ⟨Traffic.drama.id, .standard, .normal⟩,
    .enqueue ⟨Traffic.drama.id, .standard, .normal⟩ true, .turn 100, .turn 100, .turn 100,
    .change fun stage => stage.put { Traffic.drama with name := "Ran (1985)" }, .turn 100]

open Rehearsal in
/-- A refresh may start with an item that is no longer as the library holds it. -/
theorem edit_during_wait_missed :
    ¬ ∀ (m : Manager Stage) (state : Stage) (as : List (SessionAct Stage)) (r : Served Stage),
      ((fresh m state).performAll as).shift.handed? m m.config.throttle = some r →
        ((fresh m state).performAll as).item? r.item.id = some r.item := by
  intro h
  let s := (fresh (shelves damaged)
    { Manager.emptyStage with items := [Traffic.drama] }).performAll renamedWhileWaiting
  have hshown : (s.shift.handed? s.manager s.throttle).map
      (fun r => (r.item.id, r.item.name)) =
      some (Traffic.drama.id, Traffic.drama.name) := by decide +kernel
  obtain ⟨r, hr, hpair⟩ := Option.map_eq_some_iff.mp hshown
  obtain ⟨hid, hname⟩ := Prod.mk.inj hpair
  have hlive : s.item? r.item.id = some r.item := h (shelves damaged) _ renamedWhileWaiting r hr
  have hrenamed : (s.item? Traffic.drama.id).map Item.name = some "Ran (1985)" := by decide +kernel
  rw [← hid, hlive, Option.map_some, hname] at hrenamed
  exact absurd (Option.some.inj hrenamed) (by decide)

end Session

end MediaRefresh
