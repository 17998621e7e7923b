import MediaRefresh.Refresh.Tracker
import Mathlib.Data.List.Induction

/-!
# Refresh: what the tracker shows while refreshes overlap

Any number of refreshes may be under way at once, several of them of one item, and each marks
its start and its completion in the tracker.  The tracker has one entry an item, which the
first completion removes.  So an item has an entry exactly when a refresh of it has started
since the last completion of one: an entry always means a refresh under way, but a refresh
under way may have lost its entry to another one of the same item.
-/

set_option autoImplicit false

namespace MediaRefresh

open Numeric

/-! ## The entry of an item -/

namespace Tracker

variable (t : Tracker) (item : Item) (id : ItemId)

/-- The tracker after a report of progress, which changes nothing when it is refused. -/
def reported (t : Tracker) (item : Item) (progress : Binary64) : Tracker :=
  match t.report item progress with
  | .ok (after, _) => after
  | .error _ => t

theorem find?_place (placed : ItemId) (progress : Binary64) (entries : List ActiveRefresh) :
    (place placed progress entries).find? (·.item = id) =
      if placed = id then some ⟨placed, progress⟩ else entries.find? (·.item = id) := by
  induction entries with
  | nil => by_cases hid : placed = id <;> simp [place, hid]
  | cons first rest ih =>
    unfold place
    by_cases hfirst : first.item = placed
    · rw [if_pos hfirst]
      by_cases hid : placed = id <;> simp [hid, hfirst]
    · rw [if_neg hfirst]
      by_cases hbefore : placed.before first.item = true
      · rw [if_pos hbefore]
        by_cases hid : placed = id <;> simp [hid]
      · rw [if_neg hbefore, List.find?_cons, ih]
        by_cases hid : placed = id
        · have hother : first.item ≠ id := fun h => hfirst (h.trans hid.symm)
          simp [hid, hother]
        · rw [if_neg hid, List.find?_cons, if_neg hid]

theorem isRefreshing_place (placed : ItemId) (progress : Binary64) :
    isRefreshing ⟨place placed progress t.active⟩ id = true ↔
      placed = id ∨ t.isRefreshing id = true := by
  unfold isRefreshing progress?
  rw [find?_place]
  by_cases hid : placed = id <;> simp [hid]

theorem isRefreshing_start :
    (t.start item).1.isRefreshing id = true ↔ item.id = id ∨ t.isRefreshing id = true :=
  t.isRefreshing_place id item.id noProgress

theorem isRefreshing_reported (progress : Binary64) :
    (t.reported item progress).isRefreshing id = true ↔ t.isRefreshing id = true := by
  unfold reported report
  by_cases hrunning : t.isRefreshing item.id = true
  · rw [if_pos hrunning, isRefreshing_place, or_iff_right_of_imp]
    rintro rfl
    exact hrunning
  · rw [if_neg hrunning]

/-- The tracker without the entries of some items. -/
def without (t : Tracker) (ids : List ItemId) : Tracker := ⟨t.active.filter (·.item ∉ ids)⟩

theorem complete_eq_without : (t.complete item).1 = t.without [item.id] := by
  simp [complete, without]

theorem isRefreshing_without (ids : List ItemId) :
    (t.without ids).isRefreshing id = true ↔ id ∉ ids ∧ t.isRefreshing id = true := by
  unfold without isRefreshing progress?
  simp only [Option.isSome_map, List.find?_isSome, List.mem_filter, decide_eq_true_eq]
  constructor
  · rintro ⟨entry, ⟨hentry, hother⟩, rfl⟩
    exact ⟨hother, entry, hentry, rfl⟩
  · rintro ⟨hother, entry, hentry, rfl⟩
    exact ⟨entry, ⟨hentry, hother⟩, rfl⟩

theorem isRefreshing_complete :
    (t.complete item).1.isRefreshing id = true ↔ item.id ≠ id ∧ t.isRefreshing id = true := by
  rw [complete_eq_without, isRefreshing_without, List.mem_singleton, ne_comm]

end Tracker

/-! ## Refreshes that come and go -/

/-- What refreshes do to the tracker. -/
inductive TrackerAct where
  /-- a refresh of an item starts -/
  | start (item : Item)
  /-- progress is reported for an item -/
  | report (item : Item) (progress : Binary64)
  /-- the refresh completes that was the `n`-th to start -/
  | complete (n : Nat) (item : Item)
  deriving DecidableEq, Repr

namespace TrackerAct

/-- Whether a refresh of an item starts. -/
def starts (id : ItemId) : TrackerAct → Bool
  | start item => item.id = id
  | _ => false

/-- Whether a refresh of an item completes. -/
def completes (id : ItemId) : TrackerAct → Bool
  | complete _ item => item.id = id
  | _ => false

end TrackerAct

/-- A refresh that has started. -/
structure StartedRefresh where
  item : Item
  /-- whether it has not completed yet -/
  underWay : Bool
  deriving DecidableEq, Repr

/-- The tracker, and all refreshes that have started, oldest first. -/
structure Traffic where
  tracker : Tracker
  refreshes : List StartedRefresh
  deriving DecidableEq, Repr

namespace Traffic

/-- No refresh has started. -/
def quiet : Traffic := ⟨.empty, []⟩

/-- A refresh of an item starts. -/
def started (t : Traffic) (item : Item) : Traffic :=
  ⟨(t.tracker.start item).1, t.refreshes ++ [⟨item, true⟩]⟩

/-- Progress is reported for an item. -/
def reported (t : Traffic) (item : Item) (progress : Binary64) : Traffic :=
  ⟨t.tracker.reported item progress, t.refreshes⟩

/-- The refresh that was the `n`-th to start completes. -/
def completed (t : Traffic) (n : Nat) (item : Item) : Traffic :=
  ⟨(t.tracker.complete item).1, t.refreshes.set n ⟨item, false⟩⟩

/-- One act.  Only a refresh that is under way can complete. -/
def perform (t : Traffic) : TrackerAct → Option Traffic
  | .start item => some (t.started item)
  | .report item progress => some (t.reported item progress)
  | .complete n item =>
    if t.refreshes[n]? = some ⟨item, true⟩ then some (t.completed n item) else none

/-- A sequence of acts, if all of them are possible. -/
def performAll (t : Traffic) (acts : List TrackerAct) : Option Traffic := acts.foldlM perform t

variable {t u : Traffic} {a : TrackerAct} {acts more : List TrackerAct} {id : ItemId} {n : Nat}

theorem performAll_append (t : Traffic) (acts more : List TrackerAct) :
    t.performAll (acts ++ more) = (t.performAll acts).bind (·.performAll more) :=
  List.foldlM_append

theorem performAll_append_of_eq (h : t.performAll acts = some u) :
    t.performAll (acts ++ more) = u.performAll more := by
  rw [performAll_append, h, Option.bind_some]

theorem performAll_start (t : Traffic) (item : Item) (acts : List TrackerAct) :
    t.performAll (.start item :: acts) = (t.started item).performAll acts := rfl

theorem performAll_singleton (t : Traffic) (a : TrackerAct) : t.performAll [a] = t.perform a := by
  unfold performAll
  simp

/-- Everything that one act can do. -/
inductive Step : Traffic → TrackerAct → Traffic → Prop where
  | start (t : Traffic) (item : Item) : Step t (.start item) (t.started item)
  | report (t : Traffic) (item : Item) (progress : Binary64) :
      Step t (.report item progress) (t.reported item progress)
  | complete {t : Traffic} {n : Nat} {item : Item}
      (here : t.refreshes[n]? = some ⟨item, true⟩) :
      Step t (.complete n item) (t.completed n item)

theorem step_of_perform (h : t.perform a = some u) : Step t a u := by
  cases a with
  | start item =>
    obtain rfl := Option.some.inj h
    exact .start t item
  | report item progress =>
    obtain rfl := Option.some.inj h
    exact .report t item progress
  | complete n item =>
    rw [perform] at h
    by_cases hhere : t.refreshes[n]? = some ⟨item, true⟩
    · rw [if_pos hhere] at h
      obtain rfl := Option.some.inj h
      exact .complete hhere
    · rw [if_neg hhere] at h
      cases h

/-- What holds before any refresh and is kept by every act holds after every run. -/
theorem run_induction {P : List TrackerAct → Traffic → Prop} (hquiet : P [] quiet)
    (hstep : ∀ acts a t u, quiet.performAll acts = some t → P acts t → Step t a u →
      P (acts ++ [a]) u)
    (h : quiet.performAll acts = some t) : P acts t := by
  induction acts using List.reverseRecOn generalizing t with
  | nil =>
    obtain rfl := Option.some.inj h
    exact hquiet
  | append_singleton acts a ih =>
    rw [performAll_append, Option.bind_eq_some_iff] at h
    obtain ⟨mid, hmid, hlast⟩ := h
    rw [performAll_singleton] at hlast
    exact hstep acts a mid t hmid (ih hmid) (step_of_perform hlast)

/-! ## Refreshes under way -/

/-- The refresh that was the `n`-th to start is one of the item and under way. -/
def Open (t : Traffic) (id : ItemId) (n : Nat) : Prop :=
  ∃ item, t.refreshes[n]? = some ⟨item, true⟩ ∧ item.id = id

/-- A refresh of the item has started and not completed. -/
def UnderWay (t : Traffic) (id : ItemId) : Prop := ∃ n, t.Open id n

theorem open_started (t : Traffic) (item : Item) :
    (t.started item).Open id n ↔ t.Open id n ∨ n = t.refreshes.length ∧ item.id = id := by
  unfold Open started
  dsimp only
  rcases Nat.lt_trichotomy n t.refreshes.length with hlt | rfl | hgt
  · rw [List.getElem?_append_left hlt, or_iff_left]
    rintro ⟨hn, -⟩
    omega
  · simp
  · have hbefore : t.refreshes[n]? = none := List.getElem?_eq_none (by omega)
    have hafter : (t.refreshes ++ [⟨item, true⟩])[n]? = none := by
      apply List.getElem?_eq_none
      rw [List.length_append, List.length_singleton]
      omega
    simp [hbefore, hafter, Nat.ne_of_gt hgt]

theorem open_completed (t : Traffic) (m : Nat) (item : Item) :
    (t.completed m item).Open id n ↔ t.Open id n ∧ n ≠ m := by
  unfold Open completed
  dsimp only
  by_cases hnm : n = m
  · subst hnm
    simp [List.getElem?_set]
  · rw [List.getElem?_set_ne (Ne.symm hnm), and_iff_left hnm]

/-! ## The entry after one act -/

theorem isRefreshing_started (t : Traffic) (item : Item) (id : ItemId) :
    (t.started item).tracker.isRefreshing id = true ↔
      item.id = id ∨ t.tracker.isRefreshing id = true :=
  t.tracker.isRefreshing_start item id

theorem isRefreshing_reported (t : Traffic) (item : Item) (progress : Binary64) (id : ItemId) :
    (t.reported item progress).tracker.isRefreshing id = true ↔
      t.tracker.isRefreshing id = true :=
  t.tracker.isRefreshing_reported item id progress

theorem isRefreshing_completed (t : Traffic) (n : Nat) (item : Item) (id : ItemId) :
    (t.completed n item).tracker.isRefreshing id = true ↔
      item.id ≠ id ∧ t.tracker.isRefreshing id = true :=
  t.tracker.isRefreshing_complete item id

/-! ## Entries and refreshes -/

/-- Since a refresh of the item started, none has completed. -/
def StartedSince (id : ItemId) (acts : List TrackerAct) : Prop :=
  ∃ before item after, acts = before ++ .start item :: after ∧ item.id = id ∧
    ∀ a ∈ after, a.completes id = false

theorem startedSince_append_singleton (id : ItemId) (acts : List TrackerAct) (a : TrackerAct) :
    StartedSince id (acts ++ [a]) ↔
      a.starts id = true ∨ StartedSince id acts ∧ a.completes id = false := by
  constructor
  · rintro ⟨before, item, after, hacts, hitem, hnone⟩
    rcases List.eq_nil_or_concat after with rfl | ⟨init, last, rfl⟩
    · obtain ⟨-, hlast⟩ := List.append_inj' hacts rfl
      obtain rfl := List.singleton_inj.mp hlast
      exact Or.inl (by simpa [TrackerAct.starts] using hitem)
    · rw [List.concat_eq_append, ← List.cons_append, ← List.append_assoc] at hacts
      obtain ⟨rfl, hlast⟩ := List.append_inj' hacts rfl
      obtain rfl := List.singleton_inj.mp hlast
      refine Or.inr ⟨⟨before, item, init, rfl, hitem, ?_⟩, hnone a (by simp)⟩
      intro b hb
      exact hnone b (by simp [hb])
  · rintro (hstarts | ⟨⟨before, item, after, rfl, hitem, hnone⟩, hlast⟩)
    · cases a with
      | start item =>
        have hitem : item.id = id := by simpa [TrackerAct.starts] using hstarts
        exact ⟨acts, item, [], rfl, hitem, by simp⟩
      | report item progress => cases hstarts
      | complete n item => cases hstarts
    · refine ⟨before, item, after ++ [a], by simp, hitem, ?_⟩
      intro b hb
      rcases List.mem_append.mp hb with hb | hb
      · exact hnone b hb
      · rw [List.mem_singleton.mp hb]
        exact hlast

theorem Step.entry_iff (hstep : Step t a u)
    (h : t.tracker.isRefreshing id = true ↔ StartedSince id acts) :
    u.tracker.isRefreshing id = true ↔ StartedSince id (acts ++ [a]) := by
  rw [startedSince_append_singleton, ← h]
  cases hstep with
  | start item => simp [isRefreshing_started, TrackerAct.starts, TrackerAct.completes]
  | report item progress =>
    simp [isRefreshing_reported, TrackerAct.starts, TrackerAct.completes]
  | complete here =>
    simp [isRefreshing_completed, TrackerAct.starts, TrackerAct.completes, and_comm]

/-- An item has an entry exactly when a refresh of it has started since the last completion
of one. -/
theorem isRefreshing_iff_startedSince (h : quiet.performAll acts = some t) (id : ItemId) :
    t.tracker.isRefreshing id = true ↔ StartedSince id acts := by
  refine run_induction
    (P := fun acts t => t.tracker.isRefreshing id = true ↔ StartedSince id acts) ?_ ?_ h
  · constructor
    · intro hentry
      cases hentry
    · rintro ⟨before, item, after, hacts, -⟩
      simp at hacts
  · intro acts a t u _ hbefore hstep
    exact hstep.entry_iff hbefore

/-- An entry goes with the first completion, so the refresh that is behind it stays. -/
theorem Step.underWay_of_entry (hstep : Step t a u)
    (h : t.tracker.isRefreshing id = true → t.UnderWay id)
    (hentry : u.tracker.isRefreshing id = true) : u.UnderWay id := by
  cases hstep with
  | start item =>
    rcases (t.isRefreshing_started item id).mp hentry with hitem | hbefore
    · exact ⟨t.refreshes.length, (t.open_started item).mpr (Or.inr ⟨rfl, hitem⟩)⟩
    · obtain ⟨n, hopen⟩ := h hbefore
      exact ⟨n, (t.open_started item).mpr (Or.inl hopen)⟩
  | report item progress => exact h ((t.isRefreshing_reported item progress id).mp hentry)
  | @complete m item here =>
    obtain ⟨hother, hbefore⟩ := (t.isRefreshing_completed m item id).mp hentry
    obtain ⟨n, other, hn, hid⟩ := h hbefore
    refine ⟨n, (t.open_completed m item).mpr ⟨⟨other, hn, hid⟩, ?_⟩⟩
    rintro rfl
    rw [here] at hn
    cases hn
    exact hother hid

theorem underWay_of_isRefreshing (h : quiet.performAll acts = some t)
    (hentry : t.tracker.isRefreshing id = true) : t.UnderWay id := by
  refine run_induction (P := fun _ t => t.tracker.isRefreshing id = true → t.UnderWay id)
    ?_ ?_ h hentry
  · intro hnothing
    cases hnothing
  · intro acts a t u _ hbefore hstep
    exact hstep.underWay_of_entry hbefore

/-! ## Refreshes one at a time -/

/-- Whenever a refresh of the item starts, no other one of it is under way. -/
def OneAtATime (id : ItemId) (acts : List TrackerAct) : Prop :=
  ∀ before item after t, acts = before ++ .start item :: after → item.id = id →
    quiet.performAll before = some t → ¬ t.UnderWay id

theorem OneAtATime.of_append (h : OneAtATime id (acts ++ more)) : OneAtATime id acts := by
  intro before item after t hacts
  refine h before item (after ++ more) t ?_
  rw [hacts, List.append_assoc, List.cons_append]

/-- At most one refresh of the item is under way, and it has an entry. -/
structure Alone (t : Traffic) (id : ItemId) : Prop where
  unique : ∀ n m, t.Open id n → t.Open id m → n = m
  shown : t.UnderWay id → t.tracker.isRefreshing id = true

theorem Step.alone (hstep : Step t a u) (h : t.Alone id)
    (hfirst : a.starts id = true → ¬ t.UnderWay id) : u.Alone id := by
  cases hstep with
  | start item =>
    by_cases hitem : item.id = id
    · have hnothing : ¬ t.UnderWay id := hfirst (by simp [TrackerAct.starts, hitem])
      have hlast : ∀ n, (t.started item).Open id n → n = t.refreshes.length := by
        intro n hn
        rcases (t.open_started item).mp hn with hn | ⟨hn, -⟩
        · exact absurd ⟨n, hn⟩ hnothing
        · exact hn
      refine ⟨fun n m hn hm => (hlast n hn).trans (hlast m hm).symm, ?_⟩
      intro _
      exact (t.isRefreshing_started item id).mpr (Or.inl hitem)
    · have hbefore : ∀ n, (t.started item).Open id n → t.Open id n := by
        intro n hn
        rcases (t.open_started item).mp hn with hn | ⟨-, hitem'⟩
        · exact hn
        · exact absurd hitem' hitem
      refine ⟨fun n m hn hm => h.unique n m (hbefore n hn) (hbefore m hm), ?_⟩
      rintro ⟨n, hn⟩
      exact (t.isRefreshing_started item id).mpr (Or.inr (h.shown ⟨n, hbefore n hn⟩))
  | report item progress =>
    refine ⟨h.unique, ?_⟩
    intro hunder
    exact (t.isRefreshing_reported item progress id).mpr (h.shown hunder)
  | @complete m item here =>
    have hbefore : ∀ n, (t.completed m item).Open id n → t.Open id n ∧ n ≠ m :=
      fun n => (t.open_completed m item).mp
    refine ⟨fun n k hn hk => h.unique n k (hbefore n hn).1 (hbefore k hk).1, ?_⟩
    rintro ⟨n, hn⟩
    obtain ⟨hopen, hother⟩ := hbefore n hn
    refine (t.isRefreshing_completed m item id).mpr ⟨?_, h.shown ⟨n, hopen⟩⟩
    intro hitem
    exact hother (h.unique n m hopen ⟨item, here, hitem⟩)

theorem alone_of_oneAtATime (h : quiet.performAll acts = some t) (hone : OneAtATime id acts) :
    t.Alone id := by
  refine run_induction (P := fun acts t => OneAtATime id acts → t.Alone id) ?_ ?_ h hone
  · intro _
    refine ⟨?_, ?_⟩
    · rintro n m ⟨item, hitem, -⟩
      simp [quiet] at hitem
    · rintro ⟨n, item, hitem, -⟩
      simp [quiet] at hitem
  · intro acts a t u hrun hbefore hstep hone
    refine hstep.alone (hbefore hone.of_append) ?_
    intro hstarts
    cases a with
    | start item => exact hone acts item [] t rfl (by simpa [TrackerAct.starts] using hstarts) hrun
    | report item progress => cases hstarts
    | complete n item => cases hstarts

end Traffic

end MediaRefresh
