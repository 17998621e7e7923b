import MediaRefresh.Proofs.Numeric.Value
import MediaRefresh.Proofs.Refresh.Validation

/-!
# Refresh: the progress that the tracker shows

Starts, reports of progress and completions may come in any order, for any items and with any
numbers.  An item has progress exactly while the last start or completion for it was a start,
and it is that of its last accepted report since then.  Whatever is reported, what is stored
and announced is a percentage.
-/

set_option autoImplicit false

namespace MediaRefresh

open Numeric RefreshM

variable {σ : Type}

/-! ## Percentages -/

/-- A finite number between 0 and 100. -/
structure IsPercentage (progress : Binary64) : Prop where
  finite : progress.isFinite = true
  nonneg : 0 ≤ progress.value
  le_hundred : progress.value ≤ 100

theorem value_noProgress : noProgress.value = 0 := by
  have hparts : noProgress.parts.1 = 0 := by decide +kernel
  simp [Binary.value, hparts]

theorem value_fullProgress : fullProgress.value = 100 := by
  have hparts : fullProgress.parts = (25 * 2 ^ 48, -46) := by decide +kernel
  have hsign : fullProgress.negative = false := by decide +kernel
  rw [Binary.value, hparts, hsign]
  norm_num

theorem isPercentage_noProgress : IsPercentage noProgress where
  finite := by decide +kernel
  nonneg := value_noProgress.ge
  le_hundred := by
    rw [value_noProgress]
    norm_num

/-- A finite number is brought between 0 and 100, and any other counts as 0. -/
theorem value_percentage (progress : Binary64) :
    (percentage progress).value =
      if progress.isFinite then max 0 (min progress.value 100) else 0 := by
  unfold percentage
  split
  · rename_i hfinite
    rw [Binary.value_clamp (Binary.isNaN_of_isFinite hfinite) (by decide +kernel)
      (by decide +kernel), value_noProgress, value_fullProgress]
    rw [value_noProgress, value_fullProgress]
    norm_num
  · exact value_noProgress

theorem isPercentage_percentage (progress : Binary64) : IsPercentage (percentage progress) := by
  refine ⟨?_, ?_, ?_⟩
  · unfold percentage
    split
    · rename_i hfinite
      exact Binary.isFinite_clamp hfinite (by decide +kernel) (by decide +kernel)
    · decide +kernel
  · rw [value_percentage]
    split
    · exact le_max_left _ _
    · exact le_rfl
  · rw [value_percentage]
    split
    · exact max_le (by norm_num) (min_le_right _ _)
    · norm_num

/-! ## The entry of an item after each call -/

namespace Tracker

variable (t : Tracker) (item : Item) (id : ItemId)

theorem progress?_place (placed : ItemId) (progress : Binary64) :
    progress? ⟨place placed progress t.active⟩ id =
      if placed = id then some progress else t.progress? id := by
  unfold progress?
  rw [find?_place]
  split
  · rfl
  · rfl

theorem progress?_start :
    (t.start item).1.progress? id = if item.id = id then some noProgress else t.progress? id :=
  t.progress?_place id item.id noProgress

theorem progress?_complete :
    (t.complete item).1.progress? id = if item.id = id then none else t.progress? id := by
  unfold complete progress?
  dsimp only
  rw [List.find?_filter]
  split
  · rename_i hid
    subst hid
    simp
  · rename_i hid
    congr 2
    funext entry
    by_cases hentry : entry.item = id
    · simp [hentry, Ne.symm hid]
    · simp [hentry]

theorem mem_place {placed : ItemId} {progress : Binary64} {entries : List ActiveRefresh}
    {entry : ActiveRefresh} (h : entry ∈ place placed progress entries) :
    entry = ⟨placed, progress⟩ ∨ entry ∈ entries := by
  induction entries with
  | nil => exact Or.inl (List.mem_singleton.mp h)
  | cons first rest ih =>
    unfold place at h
    split at h
    · exact (List.mem_cons.mp h).imp_right (List.mem_cons_of_mem first)
    · split at h
      · exact List.mem_cons.mp h
      · rcases List.mem_cons.mp h with hfirst | hrest
        · exact Or.inr (List.mem_cons.mpr (Or.inl hfirst))
        · exact (ih hrest).imp_right (List.mem_cons_of_mem first)

end Tracker

/-! ## Calls of the tracker -/

/-- A call of the tracker. -/
inductive TrackerCall where
  /-- the refresh of an item starts -/
  | start (item : Item)
  /-- progress is reported for an item -/
  | report (item : Item) (progress : Binary64)
  /-- the refresh of an item completes -/
  | complete (item : Item)
  deriving DecidableEq, Repr

namespace TrackerCall

/-- The item that a call is for. -/
def item : TrackerCall → Item
  | start item | report item _ | complete item => item

/-- What a call does. -/
def perform : TrackerCall → RefreshM σ Unit
  | start item => RefreshM.start item
  | report item progress => RefreshM.report item progress
  | complete item => RefreshM.complete item

/-- Whether a call is a start. -/
def isStart : TrackerCall → Bool
  | start _ => true
  | _ => false

/-- Whether a call is a start or a completion for an item. -/
def marks (id : ItemId) : TrackerCall → Bool
  | start item | complete item => item.id = id
  | report .. => false

/-- Whether a call is a report for an item. -/
def reports (id : ItemId) : TrackerCall → Bool
  | report item _ => item.id = id
  | _ => false

end TrackerCall

/-- The world after a report that is accepted. -/
def World.withProgress (w : World σ) (item : Item) (progress : Binary64) : World σ :=
  { w with
    tracker := ⟨Tracker.place item.id (percentage progress) w.tracker.active⟩
    journal := w.journal ++ [.announced (.progressed item.id (percentage progress))] }

/-- Everything that a call can do. -/
inductive TrackerCall.Effect (w : World σ) :
    TrackerCall → EStateM.Result Interrupt (World σ) Unit → Prop where
  | started (item : Item) : Effect w (.start item) (.ok () (startedOn item w))
  | completed (item : Item) : Effect w (.complete item) (.ok () (completedOn item w))
  | accepted {item : Item} (running : w.tracker.isRefreshing item.id = true)
      (progress : Binary64) :
      Effect w (.report item progress) (.ok () (w.withProgress item progress))
  | refused {item : Item} (idle : w.tracker.isRefreshing item.id = false)
      (progress : Binary64) :
      Effect w (.report item progress) (.error (.failed (.notRunning item.id item.name)) w)

theorem TrackerCall.effect (call : TrackerCall) (w : World σ) :
    call.Effect w (call.perform w) := by
  cases call with
  | start item => exact .started item
  | complete item => exact .completed item
  | report item progress =>
    have hreport := report_apply item progress w
    rw [perform, hreport]
    unfold Tracker.report
    cases hrunning : w.tracker.isRefreshing item.id with
    | true => exact .accepted hrunning progress
    | false => exact .refused hrunning progress

/-! ## Runs of calls -/

/-- A call that has been made. -/
structure MadeCall where
  call : TrackerCall
  /-- whether it has not failed -/
  succeeded : Bool
  deriving DecidableEq, Repr

/-- A world, and the calls of the tracker that have been made in it. -/
structure TrackerRun (σ : Type) where
  world : World σ
  /-- latest first -/
  made : List MadeCall

/-- The progress that an event announces for an item. -/
def RefreshEvent.progressOf? (id : ItemId) : RefreshEvent → Option Binary64
  | progressed item progress => if item = id then some progress else none
  | _ => none

/-- The progress that the last report for an item announced. -/
def lastProgress? (id : ItemId) (events : List RefreshEvent) : Option Binary64 :=
  (events.filterMap (RefreshEvent.progressOf? id)).getLast?

/-- The last start or completion for an item was a start; the calls stand latest first. -/
def LastStarted (id : ItemId) (made : List MadeCall) : Prop :=
  ∃ m, made.find? (·.call.marks id) = some m ∧ m.call.isStart = true

/-- A report for an item has succeeded since the last start or completion for it. -/
def ReportedSince (id : ItemId) (made : List MadeCall) : Prop :=
  ∃ m ∈ made.takeWhile (!·.call.marks id), m.call.reports id = true ∧ m.succeeded = true

section Readings

variable {id : ItemId} {m : MadeCall} {made : List MadeCall}

theorem not_lastStarted_nil : ¬ LastStarted id [] := by simp [LastStarted]

theorem lastStarted_cons_of_marks (h : m.call.marks id = true) :
    LastStarted id (m :: made) ↔ m.call.isStart = true := by
  simp [LastStarted, h]

theorem lastStarted_cons_of_not (h : m.call.marks id = false) :
    LastStarted id (m :: made) ↔ LastStarted id made := by
  simp [LastStarted, h]

theorem not_reportedSince_of_marks (h : m.call.marks id = true) :
    ¬ ReportedSince id (m :: made) := by
  simp [ReportedSince, h]

theorem reportedSince_cons_of_not (h : m.call.marks id = false) :
    ReportedSince id (m :: made) ↔
      (m.call.reports id = true ∧ m.succeeded = true) ∨ ReportedSince id made := by
  simp [ReportedSince, h]

theorem lastProgress?_append (events : List RefreshEvent) (e : RefreshEvent) :
    lastProgress? id (events ++ [e]) = (e.progressOf? id).or (lastProgress? id events) := by
  unfold lastProgress?
  rw [List.filterMap_append]
  cases he : e.progressOf? id with
  | none => simp [he]
  | some progress => simp [he]

@[simp] theorem events_startedOn (item : Item) (w : World σ) :
    (startedOn item w).events = w.events ++ [.started item.id item.name] := by
  simp [World.events, startedOn, Tracker.start]

@[simp] theorem events_completedOn (item : Item) (w : World σ) :
    (completedOn item w).events = w.events ++ [.completed item.id] := by
  simp [World.events, completedOn, Tracker.complete]

@[simp] theorem events_withProgress (w : World σ) (item : Item) (progress : Binary64) :
    (w.withProgress item progress).events =
      w.events ++ [.progressed item.id (percentage progress)] := by
  simp [World.events, World.withProgress]

end Readings

/-! ## Percentages everywhere -/

/-- Everything that is stored and everything that has been announced is a percentage. -/
structure World.Percentages (w : World σ) : Prop where
  stored : ∀ entry ∈ w.tracker.active, IsPercentage entry.progress
  announced : ∀ id progress, .progressed id progress ∈ w.events → IsPercentage progress

theorem World.Percentages.step {w w' : World σ} {e : RefreshEvent} (h : w.Percentages)
    (hevents : w'.events = w.events ++ [e])
    (hstored : ∀ entry ∈ w'.tracker.active,
      entry ∈ w.tracker.active ∨ IsPercentage entry.progress)
    (hannounced : ∀ id progress, e = .progressed id progress → IsPercentage progress) :
    w'.Percentages where
  stored entry hentry := (hstored entry hentry).elim (h.stored entry) fun hnew => hnew
  announced id progress hprogress := by
    rw [hevents, List.mem_append, List.mem_singleton] at hprogress
    exact hprogress.elim (h.announced id progress) fun hlast => hannounced id progress hlast.symm

theorem World.Percentages.perform {w : World σ} (h : w.Percentages) (call : TrackerCall) :
    (World.after (call.perform w)).Percentages := by
  have hplaced (id : ItemId) {progress : Binary64} (hprogress : IsPercentage progress) :
      ∀ entry ∈ Tracker.place id progress w.tracker.active,
        entry ∈ w.tracker.active ∨ IsPercentage entry.progress := by
    intro entry hentry
    rcases Tracker.mem_place hentry with rfl | hbefore
    · exact Or.inr hprogress
    · exact Or.inl hbefore
  have heffect := call.effect w
  generalize call.perform w = result at heffect
  cases heffect with
  | started item =>
    refine h.step (events_startedOn item w) (hplaced item.id isPercentage_noProgress) ?_
    intro id progress hevent
    cases hevent
  | completed item =>
    refine h.step (events_completedOn item w) ?_ ?_
    · intro entry hentry
      exact Or.inl (List.mem_of_mem_filter hentry)
    · intro id progress hevent
      cases hevent
  | @accepted item hrunning progress =>
    have hpercentage := isPercentage_percentage progress
    refine h.step (events_withProgress w item progress) (hplaced item.id hpercentage) ?_
    intro id other hevent
    cases hevent
    exact hpercentage
  | refused hidle progress => exact h

/-! ## What the tracker shows of an item -/

namespace TrackerRun

/-- No call has been made. -/
def fresh (state : σ) : TrackerRun σ := ⟨.fresh state, []⟩

/-- One more call is made. -/
def next (r : TrackerRun σ) (call : TrackerCall) : TrackerRun σ :=
  let result := call.perform r.world
  ⟨World.after result, ⟨call, World.Returned result⟩ :: r.made⟩

/-- A sequence of calls is made. -/
def after (r : TrackerRun σ) (calls : List TrackerCall) : TrackerRun σ := calls.foldl next r

/-- What the tracker shows of an item agrees with the calls that have been made and with what
they have announced. -/
structure Shows (r : TrackerRun σ) (id : ItemId) : Prop where
  started : (r.world.tracker.progress? id).isSome = true ↔ LastStarted id r.made
  unreported : LastStarted id r.made → ¬ ReportedSince id r.made →
    r.world.tracker.progress? id = some noProgress
  reported : LastStarted id r.made → ReportedSince id r.made →
    r.world.tracker.progress? id = lastProgress? id r.world.events

variable {w w' : World σ} {made : List MadeCall} {m : MadeCall} {id : ItemId}

theorem shows_fresh (state : σ) (id : ItemId) : (fresh state).Shows id where
  started := iff_of_false Bool.false_ne_true not_lastStarted_nil
  unreported hstarted := absurd hstarted not_lastStarted_nil
  reported hstarted := absurd hstarted not_lastStarted_nil

/-- A call that neither marks the item nor succeeds in reporting for it. -/
theorem Shows.pass (h : Shows ⟨w, made⟩ id) (hmarks : m.call.marks id = false)
    (hreports : m.call.reports id = true → m.succeeded = false)
    (hprogress : w'.tracker.progress? id = w.tracker.progress? id)
    (hlast : lastProgress? id w'.events = lastProgress? id w.events) :
    Shows ⟨w', m :: made⟩ id := by
  have hsince : ReportedSince id (m :: made) ↔ ReportedSince id made := by
    rw [reportedSince_cons_of_not hmarks, or_iff_right]
    rintro ⟨hm, hsucceeded⟩
    rw [hreports hm] at hsucceeded
    cases hsucceeded
  obtain ⟨hstarted, hunreported, hreported⟩ := h
  refine ⟨?_, ?_, ?_⟩
  · rw [lastStarted_cons_of_not hmarks, hprogress]
    exact hstarted
  · rw [lastStarted_cons_of_not hmarks, hsince, hprogress]
    exact hunreported
  · rw [lastStarted_cons_of_not hmarks, hsince, hprogress, hlast]
    exact hreported

/-- A start or a completion of the item, whatever has been before. -/
theorem shows_of_marks (hmarks : m.call.marks id = true)
    (hshown : w'.tracker.progress? id = if m.call.isStart then some noProgress else none) :
    Shows ⟨w', m :: made⟩ id where
  started := by
    rw [lastStarted_cons_of_marks hmarks, hshown]
    cases m.call.isStart with
    | true => simp
    | false => simp
  unreported hstarted _ := by
    rwa [(lastStarted_cons_of_marks hmarks).mp hstarted, if_pos rfl] at hshown
  reported _ hsince := absurd hsince (not_reportedSince_of_marks hmarks)

/-- A report that succeeds, as the item has progress. -/
theorem Shows.report (h : Shows ⟨w, made⟩ id) (hmarks : m.call.marks id = false)
    (hreports : m.call.reports id = true) (hsucceeded : m.succeeded = true)
    (hrunning : w.tracker.isRefreshing id = true) {progress : Binary64}
    (hshown : w'.tracker.progress? id = some progress)
    (hlast : lastProgress? id w'.events = some progress) : Shows ⟨w', m :: made⟩ id where
  started := by
    rw [lastStarted_cons_of_not hmarks, iff_true_right (h.started.mp hrunning)]
    exact Option.isSome_of_eq_some hshown
  unreported _ hnone :=
    absurd ((reportedSince_cons_of_not hmarks).mpr (Or.inl ⟨hreports, hsucceeded⟩)) hnone
  reported _ _ := hshown.trans hlast.symm

theorem Shows.next {r : TrackerRun σ} (h : r.Shows id) (call : TrackerCall) :
    (r.next call).Shows id := by
  obtain ⟨w, made⟩ := r
  have heffect := call.effect w
  unfold TrackerRun.next
  dsimp only at heffect ⊢
  generalize call.perform w = result at heffect
  cases heffect with
  | started item =>
    have hshown := w.tracker.progress?_start item id
    by_cases hid : item.id = id
    · rw [if_pos hid] at hshown
      exact shows_of_marks (decide_eq_true hid) hshown
    · rw [if_neg hid] at hshown
      refine h.pass (decide_eq_false hid) (fun hreports => ?_) hshown ?_
      · cases hreports
      · rw [World.after, events_startedOn, lastProgress?_append]
        rfl
  | completed item =>
    have hshown := w.tracker.progress?_complete item id
    by_cases hid : item.id = id
    · rw [if_pos hid] at hshown
      exact shows_of_marks (decide_eq_true hid) hshown
    · rw [if_neg hid] at hshown
      refine h.pass (decide_eq_false hid) (fun hreports => ?_) hshown ?_
      · cases hreports
      · rw [World.after, events_completedOn, lastProgress?_append]
        rfl
  | @accepted item hrunning progress =>
    have hshown := w.tracker.progress?_place id item.id (percentage progress)
    have hlast : lastProgress? id (w.withProgress item progress).events =
        if item.id = id then some (percentage progress) else lastProgress? id w.events := by
      rw [events_withProgress, lastProgress?_append, RefreshEvent.progressOf?]
      split
      · rfl
      · rfl
    by_cases hid : item.id = id
    · rw [if_pos hid] at hshown hlast
      exact h.report rfl (decide_eq_true hid) rfl (hid ▸ hrunning) hshown hlast
    · rw [if_neg hid] at hshown hlast
      refine h.pass rfl (fun hreports => ?_) hshown hlast
      exact absurd (of_decide_eq_true hreports) hid
  | @refused item hidle progress =>
    exact h.pass rfl (fun _ => rfl) rfl rfl

theorem after_append_singleton (r : TrackerRun σ) (calls : List TrackerCall)
    (call : TrackerCall) : r.after (calls ++ [call]) = (r.after calls).next call :=
  List.foldl_concat ..

/-- What holds before any call and is kept by every call holds after every run. -/
theorem after_induction {P : TrackerRun σ → Prop} {r : TrackerRun σ} (hbase : P r)
    (hnext : ∀ r call, P r → P (r.next call)) (calls : List TrackerCall) : P (r.after calls) := by
  induction calls using List.reverseRecOn with
  | nil => exact hbase
  | append_singleton calls call ih =>
    rw [after_append_singleton]
    exact hnext _ call ih

theorem progress?_perform_of_ne (call : TrackerCall) (w : World σ) (h : id ≠ call.item.id) :
    (World.after (call.perform w)).tracker.progress? id = w.tracker.progress? id := by
  have heffect := call.effect w
  generalize call.perform w = result at heffect
  cases heffect with
  | started item => exact (w.tracker.progress?_start item id).trans (if_neg (Ne.symm h))
  | completed item => exact (w.tracker.progress?_complete item id).trans (if_neg (Ne.symm h))
  | accepted hrunning progress =>
    exact (w.tracker.progress?_place id _ _).trans (if_neg (Ne.symm h))
  | refused hidle progress => rfl

/-- How a report ends: with a percentage that is stored and announced while the item has
progress, else with an error and nothing else. -/
theorem report_end (item : Item) (progress : Binary64) (w : World σ) :
    match RefreshM.report item progress w with
    | .ok _ w' => (w.tracker.progress? item.id).isSome = true ∧
        w'.events = w.events ++ [.progressed item.id (percentage progress)] ∧
        w'.tracker.progress? item.id = some (percentage progress)
    | .error e w' => w.tracker.progress? item.id = none ∧
        e = .failed (.notRunning item.id item.name) ∧ w' = w := by
  have heffect := (TrackerCall.report item progress).effect w
  rw [TrackerCall.perform] at heffect
  generalize RefreshM.report item progress w = result at heffect
  cases heffect with
  | accepted hrunning =>
    refine ⟨hrunning, events_withProgress w item progress, ?_⟩
    exact (w.tracker.progress?_place item.id _ _).trans (if_pos rfl)
  | refused hidle =>
    have hnone := Option.isNone_iff_eq_none.mp (Option.isSome_eq_false_iff.mp hidle)
    exact ⟨hnone, rfl, rfl⟩

/-- Whatever calls have been made for whatever items: an item has progress exactly when the
last start or completion for it was a start, namely 0 until a report for it succeeds and then
what the last report for it has announced.  All that is stored or announced is a percentage,
the reported number brought between 0 and 100.  A report fails exactly when the item has no
progress, and then nothing happens; and no call touches the entry of another item. -/
theorem progress_follows_calls (state : σ) (calls : List TrackerCall) :
    let r := (fresh state).after calls
    (∀ id, r.Shows id) ∧ r.world.Percentages ∧
      (∀ progress, (percentage progress).value =
        if progress.isFinite then max 0 (min progress.value 100) else 0) ∧
      (∀ item progress, match RefreshM.report item progress r.world with
        | .ok _ w => (r.world.tracker.progress? item.id).isSome = true ∧
            w.events = r.world.events ++ [.progressed item.id (percentage progress)] ∧
            w.tracker.progress? item.id = some (percentage progress)
        | .error e w => r.world.tracker.progress? item.id = none ∧
            e = .failed (.notRunning item.id item.name) ∧ w = r.world) ∧
      ∀ (call : TrackerCall) (id : ItemId), id ≠ call.item.id →
        (World.after (call.perform r.world)).tracker.progress? id =
          r.world.tracker.progress? id := by
  refine ⟨fun id => ?_, ?_, value_percentage, fun item progress => report_end item progress _,
    fun call id => progress?_perform_of_ne call _⟩
  · exact after_induction (P := fun r => r.Shows id) (shows_fresh state id)
      (fun r call h => h.next call) calls
  · refine after_induction (P := fun r => r.world.Percentages) ?_
      (fun r call h => h.perform call) calls
    exact ⟨fun entry hentry => absurd hentry List.not_mem_nil,
      fun id progress hprogress => absurd hprogress List.not_mem_nil⟩

end TrackerRun

end MediaRefresh
