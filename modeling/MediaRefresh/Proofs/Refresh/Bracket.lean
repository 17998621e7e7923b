import MediaRefresh.Proofs.Refresh.Composition
import MediaRefresh.Proofs.Refresh.Overlap

/-!
# Refresh: calls bracket their refreshes

Whatever refreshes are under way, what a call does to the tracker is a sequence of acts, and it
completes the refreshes that it starts unless a collaborator crashes.  So calls take a run of
the tracker on, and what is known of runs holds before, during and after every call.
-/

set_option autoImplicit false

namespace MediaRefresh

open Numeric

variable {σ α β : Type}

/-- Whether an action ended with a crash. -/
def World.Crashed : EStateM.Result Interrupt (World σ) α → Prop
  | .error .crashed _ => True
  | _ => False

/-- A run goes on with acts that lead to the tracker that an action leaves, and the refreshes
`new` that start on the way complete unless the action crashes. -/
structure Traffic.GoesOn (t : Traffic) (acts : List TrackerAct) (new : List StartedRefresh)
    (result : EStateM.Result Interrupt (World σ) α) : Prop where
  run : t.performAll acts = some ⟨(World.after result).tracker, t.refreshes ++ new⟩
  closed : World.Crashed result ∨ ∀ r ∈ new, r.underWay = false

/-- A run goes on with one refresh of an item, from its start to its completion, unless the
action crashes in between. -/
def Traffic.GoesThrough (t : Traffic) (item : Item)
    (result : EStateM.Result Interrupt (World σ) α) : Prop :=
  ∃ inner new, t.GoesOn (.start item :: inner) new result ∧
    (World.Crashed result ∨ ∃ within, inner = within ++ [.complete t.refreshes.length item])

namespace RefreshM

/-- From any world, and whatever refreshes have started before, a run goes on with the
action. -/
def Brackets (x : RefreshM σ α) : Prop :=
  ∀ w refreshes, ∃ acts new, Traffic.GoesOn ⟨w.tracker, refreshes⟩ acts new (x w)

/-- From any world, and whatever refreshes have started before, the action is one refresh of
an item. -/
def Spans (item : Item) (x : RefreshM σ α) : Prop :=
  ∀ w refreshes, Traffic.GoesThrough ⟨w.tracker, refreshes⟩ item (x w)

variable {x : RefreshM σ α} {f : α → RefreshM σ β} {item : Item}

theorem Spans.brackets (h : Spans item x) : Brackets x := by
  intro w refreshes
  obtain ⟨inner, new, hgoes, -⟩ := h w refreshes
  exact ⟨_, new, hgoes⟩

namespace Brackets

theorem of_untracked (h : Untracked x) : Brackets x := by
  intro w refreshes
  have htracker : (World.after (x w)).tracker = w.tracker := congrArg Prod.fst (h w)
  refine ⟨[], [], ?_, Or.inr (by simp)⟩
  rw [htracker, List.append_nil]
  rfl

protected theorem bind (hx : Brackets x) (hf : ∀ a, Brackets (f a)) : Brackets (x >>= f) := by
  intro w refreshes
  obtain ⟨acts, new, hgoes⟩ := hx w refreshes
  cases hres : x w with
  | ok a mid =>
    rw [hres] at hgoes
    obtain ⟨more, later, hlater⟩ := hf a mid (refreshes ++ new)
    rw [bind_of_ok hres]
    refine ⟨acts ++ more, new ++ later, ?_, ?_⟩
    · rw [Traffic.performAll_append_of_eq hgoes.run, ← List.append_assoc]
      exact hlater.run
    · have hnew : ∀ r ∈ new, r.underWay = false := hgoes.closed.resolve_left id
      refine hlater.closed.imp_right fun hall r hr => ?_
      exact (List.mem_append.mp hr).elim (hnew r) (hall r)
  | error e mid =>
    rw [hres] at hgoes
    rw [bind_of_error hres]
    refine ⟨acts, new, hgoes.run, ?_⟩
    cases e with
    | crashed => exact Or.inl trivial
    | failed e => exact hgoes.closed

/-- The outside takes the world and gives it back with the same tracker. -/
theorem exchange {g : World σ → World σ} {k : World σ → RefreshM σ α}
    (hg : ∀ w, (g w).tracker = w.tracker) (hk : ∀ w, Brackets (k w)) :
    Brackets (do
      let w ← get
      set (g w)
      k w) := by
  intro w refreshes
  have hgoes := hk w (g w) refreshes
  rw [hg w] at hgoes
  exact hgoes

protected theorem attempt (hx : Brackets x) : Brackets (attempt x) := by
  intro w refreshes
  obtain ⟨acts, new, hgoes⟩ := hx w refreshes
  refine ⟨acts, new, ?_⟩
  unfold attempt
  cases hres : x w with
  | ok a mid =>
    rw [hres] at hgoes
    exact ⟨hgoes.run, hgoes.closed⟩
  | error e mid =>
    rw [hres] at hgoes
    cases e with
    | failed e => exact ⟨hgoes.run, hgoes.closed⟩
    | crashed => exact ⟨hgoes.run, hgoes.closed⟩

end Brackets

theorem attempt_apply (x : RefreshM σ α) (w : World σ) :
    attempt x w = match x w with
      | .ok a after => .ok (.ok a) after
      | .error (.failed e) after => .ok (.error e) after
      | .error .crashed after => .error .crashed after := rfl

theorem report_apply (item : Item) (progress : Binary64) (w : World σ) :
    report item progress w = match w.tracker.report item progress with
      | .ok (tracker, event) =>
        .ok () { w with tracker := tracker, journal := w.journal ++ [.announced event] }
      | .error e => .error (.failed e) w := by
  have hget : (get : RefreshM σ (World σ)) w = .ok w w := rfl
  unfold report
  rw [bind_of_ok hget]
  cases w.tracker.report item progress with
  | ok told => rfl
  | error e => rfl

/-- The world after a report of progress; one that is refused changes nothing. -/
def reportedOn (item : Item) (progress : Binary64) (w : World σ) : World σ :=
  match w.tracker.report item progress with
  | .ok (tracker, event) =>
    { w with tracker := tracker, journal := w.journal ++ [.announced event] }
  | .error _ => w

theorem reportLeniently_apply (item : Item) (progress : Binary64) (w : World σ) :
    reportLeniently item progress w = .ok () (reportedOn item progress w) := by
  have hreport := report_apply item progress w
  have hattempt := attempt_apply (report item progress) w
  unfold reportLeniently reportedOn
  cases hres : w.tracker.report item progress with
  | ok told =>
    rw [hres] at hreport
    rw [hreport] at hattempt
    exact bind_of_ok hattempt
  | error e =>
    rw [hres] at hreport
    rw [hreport] at hattempt
    exact bind_of_ok hattempt

theorem tracker_reportedOn (item : Item) (progress : Binary64) (w : World σ) :
    (reportedOn item progress w).tracker = w.tracker.reported item progress := by
  unfold reportedOn Tracker.reported
  cases w.tracker.report item progress with
  | ok told => rfl
  | error e => rfl

protected theorem Brackets.reportLeniently (item : Item) (progress : Binary64) :
    Brackets (reportLeniently item progress : RefreshM σ Unit) := by
  intro w refreshes
  refine ⟨[.report item progress], [], ?_, Or.inr (by simp)⟩
  rw [reportLeniently_apply, List.append_nil, Traffic.performAll_singleton]
  exact congrArg (fun tracker => some (⟨tracker, refreshes⟩ : Traffic))
    (tracker_reportedOn item progress w).symm

/-- The world in which the refresh of an item has just started. -/
def startedOn (item : Item) (w : World σ) : World σ :=
  { w with
    tracker := (w.tracker.start item).1
    journal := w.journal ++ [.announced (w.tracker.start item).2] }

/-- The world in which the refresh of an item has just completed. -/
def completedOn (item : Item) (w : World σ) : World σ :=
  { w with
    tracker := (w.tracker.complete item).1
    journal := w.journal ++ [.announced (w.tracker.complete item).2] }

theorem during_apply (item : Item) (x : RefreshM σ α) (w : World σ) :
    during item x w = match x (startedOn item w) with
      | .ok a after => .ok a (completedOn item after)
      | .error (.failed e) after => .error (.failed e) (completedOn item after)
      | .error .crashed after => .error .crashed after := by
  have hstart : start item w = .ok () (startedOn item w) := rfl
  unfold during
  rw [bind_of_ok hstart]
  have hattempt := attempt_apply x (startedOn item w)
  cases hres : x (startedOn item w) with
  | ok a after =>
    rw [hres] at hattempt
    rw [bind_of_ok hattempt]
    rfl
  | error e after =>
    rw [hres] at hattempt
    cases e with
    | failed e =>
      rw [bind_of_ok hattempt]
      rfl
    | crashed => rw [bind_of_error hattempt]

/-- A run that goes on within a refresh goes on with the whole of it. -/
theorem goesOn_of_completed {t : Traffic} {acts : List TrackerAct} {new : List StartedRefresh}
    {within : EStateM.Result Interrupt (World σ) α} {result : EStateM.Result Interrupt (World σ) β}
    (h : (t.started item).GoesOn acts new within) (hends : ¬ World.Crashed within)
    (hafter : World.after result = completedOn item (World.after within)) :
    t.GoesOn (.start item :: (acts ++ [.complete t.refreshes.length item]))
      (⟨item, false⟩ :: new) result where
  run := by
    have hhere : ((t.started item).refreshes ++ new)[t.refreshes.length]? =
        some ⟨item, true⟩ := by simp [Traffic.started]
    have hset : ((t.started item).refreshes ++ new).set t.refreshes.length ⟨item, false⟩ =
        t.refreshes ++ ⟨item, false⟩ :: new := by simp [Traffic.started]
    rw [Traffic.performAll_start, Traffic.performAll_append_of_eq h.run,
      Traffic.performAll_singleton, Traffic.perform, if_pos hhere, Traffic.completed, hset, hafter]
    rfl
  closed := Or.inr (List.forall_mem_cons.mpr ⟨rfl, h.closed.resolve_left hends⟩)

/-- A refresh completes in whatever way its action ends, but for a crash. -/
protected theorem Spans.during (hx : Brackets x) (item : Item) : Spans item (during item x) := by
  intro w refreshes
  have hduring := during_apply item x w
  have hwithin : ∃ acts new, Traffic.GoesOn (Traffic.started ⟨w.tracker, refreshes⟩ item) acts new
      (x (startedOn item w)) := hx (startedOn item w) _
  obtain ⟨acts, new, hgoes⟩ := hwithin
  cases hres : x (startedOn item w) with
  | ok a after =>
    rw [hres] at hgoes hduring
    rw [hduring]
    exact ⟨_, _, goesOn_of_completed hgoes id rfl, Or.inr ⟨acts, rfl⟩⟩
  | error e after =>
    rw [hres] at hgoes hduring
    rw [hduring]
    cases e with
    | failed e => exact ⟨_, _, goesOn_of_completed hgoes id rfl, Or.inr ⟨acts, rfl⟩⟩
    | crashed =>
      refine ⟨acts, ⟨item, true⟩ :: new, ⟨?_, Or.inl trivial⟩, Or.inl trivial⟩
      rw [Traffic.performAll_start, hgoes.run]
      simp [Traffic.started]

end RefreshM

open RefreshM

theorem RefreshM.brackets_composes : Composes fun _ (x : RefreshM σ _) => Brackets x where
  untracked := .of_untracked
  bind := .bind
  exchange htracker _ hk := .exchange htracker hk
  attempt := .attempt
  reportLeniently := .reportLeniently
  during hx item := (Spans.during hx item).brackets

/-- The refresh of an item starts and completes a refresh of that item around what it contains. -/
theorem Manager.refreshItem_spans (m : Manager σ) (item : Item) (options : RefreshOptions) :
    Spans item (m.refreshItem item options) :=
  .during (brackets_composes.withinItem m item options) item

/-- Every call of a manager is a run of refreshes that start and complete. -/
theorem Manager.carryOut_brackets (m : Manager σ) (call : RefreshCall) :
    Brackets (m.carryOut call) :=
  brackets_composes.carryOut m call

namespace Traffic

/-- An item has an entry exactly when a refresh of it has started since the last completion of
one.  This is then a refresh under way, and conversely as long as the refreshes of the item do
not overlap.  Every call of a manager takes the run on, that for one item as a refresh of it
from its start to its completion. -/
theorem entry_since_last_completion {acts : List TrackerAct} {t : Traffic}
    (h : quiet.performAll acts = some t) (id : ItemId) :
    (t.tracker.isRefreshing id = true ↔ StartedSince id acts) ∧
      (t.tracker.isRefreshing id = true → t.UnderWay id) ∧
      (OneAtATime id acts → (t.tracker.isRefreshing id = true ↔ t.UnderWay id)) ∧
      ∀ (m : Manager σ) (w : World σ), w.tracker = t.tracker →
        (∀ call, ∃ more new, t.GoesOn more new (m.carryOut call w)) ∧
          ∀ item options, t.GoesThrough item (m.refreshItem item options w) := by
  refine ⟨isRefreshing_iff_startedSince h id, underWay_of_isRefreshing h, ?_, ?_⟩
  · intro hone
    exact ⟨underWay_of_isRefreshing h, (alone_of_oneAtATime h hone).shown⟩
  · intro m w htracker
    rcases t with ⟨tracker, refreshes⟩
    obtain rfl : w.tracker = tracker := htracker
    refine ⟨fun call => m.carryOut_brackets call w refreshes, ?_⟩
    intro item options
    exact m.refreshItem_spans item options w refreshes

/-- A film to refresh. -/
def drama : Item := Item.bare .zero .movie "Ran"

/-- The film is refreshed, and later refreshed again. -/
def refreshedTwice : List TrackerAct := [.start drama, .complete 0 drama, .start drama]

theorem refreshedTwice_oneAtATime : OneAtATime drama.id refreshedTwice := by
  rintro before item after t hacts - hrun ⟨n, other, hopen, -⟩
  rcases before with _ | ⟨first, _ | ⟨second, _ | ⟨third, rest⟩⟩⟩
  · obtain rfl := Option.some.inj hrun
    cases hopen
  · cases hacts
  · cases hacts
    obtain rfl := Option.some.inj hrun
    rcases n with _ | n
    · cases hopen
    · cases hopen
  · have hlength := congrArg List.length hacts
    simp [refreshedTwice] at hlength

theorem later_refresh_shown :
    ∃ t, quiet.performAll refreshedTwice = some t ∧ t.UnderWay drama.id ∧
      t.tracker.isRefreshing drama.id = true := by
  have hrun : quiet.performAll refreshedTwice =
      some ⟨⟨[⟨drama.id, noProgress⟩]⟩, [⟨drama, false⟩, ⟨drama, true⟩]⟩ := rfl
  have hentry := (@entry_since_last_completion Unit _ _ hrun drama.id).2.2.1
    refreshedTwice_oneAtATime
  have hunder : UnderWay ⟨⟨[⟨drama.id, noProgress⟩]⟩, [⟨drama, false⟩, ⟨drama, true⟩]⟩
      drama.id := ⟨1, drama, rfl, rfl⟩
  exact ⟨_, hrun, hunder, hentry.mpr hunder⟩

/-- Two refreshes of a film overlap, and the one that completes first takes the entry of the
other. -/
theorem overlap_loses_entry :
    ¬ ∀ (acts : List TrackerAct) (t : Traffic) (id : ItemId), quiet.performAll acts = some t →
      (t.tracker.isRefreshing id = true ↔ t.UnderWay id) := by
  intro h
  have hrun : quiet.performAll [.start drama, .start drama, .complete 0 drama] =
      some ⟨.empty, [⟨drama, false⟩, ⟨drama, true⟩]⟩ := rfl
  have hentry := (h _ _ drama.id hrun).mpr ⟨1, drama, rfl, rfl⟩
  cases hentry

end Traffic

end MediaRefresh
