import MediaRefresh.Proofs.Refresh.Bracket
import MediaRefresh.Proofs.Refresh.Commit

/-!
# Refresh: marks and announcements

The start of a refresh, its reports of progress and its completion are announced, and each
changes the tracker.  A refresh that ends, with whatever result, has announced what happened
within between its start and its completion, and its item has no entry any more.  One that a
crash cuts off has not announced its completion, and its item keeps the entry.
-/

set_option autoImplicit false

namespace MediaRefresh

open Numeric RefreshM

variable {σ α β : Type}

/-! ## Trackers without some entries -/

namespace Tracker

variable {t : Tracker} {ids more : List ItemId} {item : Item}

@[simp] theorem without_nil (t : Tracker) : t.without [] = t :=
  congrArg Tracker.mk (by simp)

theorem without_without (t : Tracker) (ids more : List ItemId) :
    (t.without ids).without more = t.without (ids ++ more) := by
  simp [without, List.filter_filter, Bool.and_comm]

theorem without_congr (t : Tracker) (h : ∀ id, id ∈ ids ↔ id ∈ more) :
    t.without ids = t.without more := by simp [without, h]

theorem without_of_absent (h : ∀ id ∈ ids, t.isRefreshing id = false) : t.without ids = t := by
  have hkeep : t.active.filter (·.item ∉ ids) = t.active := by
    refine List.filter_eq_self.mpr fun entry hentry => ?_
    simp only [decide_eq_true_eq]
    intro hid
    have hshown : t.isRefreshing entry.item = true := by
      simp only [isRefreshing, progress?, Option.isSome_map, List.find?_isSome]
      exact ⟨entry, hentry, decide_eq_true rfl⟩
    rw [h entry.item hid] at hshown
    cases hshown
  rw [without, hkeep]

theorem filter_place {placed : ItemId} (h : placed ∈ ids) (progress : Binary64)
    (entries : List ActiveRefresh) :
    (place placed progress entries).filter (·.item ∉ ids) = entries.filter (·.item ∉ ids) := by
  induction entries with
  | nil => simp [place, h]
  | cons first rest ih =>
    unfold place
    split
    · rename_i hfirst
      simp [h, hfirst]
    · split
      · simp [h]
      · rw [List.filter_cons, List.filter_cons, ih]

theorem start_without (h : item.id ∈ ids) : (t.start item).1.without ids = t.without ids :=
  congrArg Tracker.mk (filter_place h noProgress t.active)

theorem reported_without (progress : Binary64) (h : item.id ∈ ids) :
    (t.reported item progress).without ids = t.without ids := by
  unfold reported report
  split
  · rename_i after event hres
    split at hres
    · cases hres
      exact congrArg Tracker.mk (filter_place h _ t.active)
    · cases hres
  · rfl

end Tracker

/-! ## What is announced of refreshes -/

/-- What has been announced of refreshes, in order: everything but changes of items. -/
def told (lines : List Entry) : List RefreshEvent :=
  (announcements lines).filter RefreshEvent.tracks

@[simp] theorem told_append (lines more : List Entry) :
    told (lines ++ more) = told lines ++ told more := by simp [told]

theorem told_filter_tracks (lines : List Entry) :
    told (lines.filter Entry.tracks) = told lines := by
  induction lines with
  | nil => rfl
  | cons e rest ih =>
    have happend (e : Entry) (l : List Entry) : told (e :: l) = told [e] ++ told l :=
      told_append [e] l
    cases htracks : e.tracks with
    | true => rw [List.filter_cons_of_pos htracks, happend, happend e rest, ih]
    | false =>
      have hnone : told [e] = [] := by
        cases e with
        | announced event =>
          simpa [told, announcements, Entry.announced?, Entry.tracks] using htracks
        | _ => rfl
      rw [List.filter_cons_of_neg (by simp [htracks]), ih, happend e rest, hnone, List.nil_append]

theorem RefreshM.Untracked.told_eq {x : RefreshM σ α} (h : Untracked x) (w : World σ) :
    told (World.after (x w)).journal = told w.journal := by
  have hlines : (World.after (x w)).journal.filter Entry.tracks = w.journal.filter Entry.tracks :=
    congrArg Prod.snd (h w)
  rw [← told_filter_tracks, hlines, told_filter_tracks]

theorem RefreshM.Untracked.tracker_eq {x : RefreshM σ α} (h : Untracked x) (w : World σ) :
    (World.after (x w)).tracker = w.tracker := congrArg Prod.fst (h w)

/-- The item whose refresh starts with an event. -/
def RefreshEvent.started? : RefreshEvent → Option ItemId
  | started item _ => some item
  | _ => none

/-- The items whose refreshes start in a stretch of announcements. -/
def startsIn (events : List RefreshEvent) : List ItemId :=
  events.filterMap RefreshEvent.started?

/-- What is announced of the refresh of an item around what is announced within. -/
def bracket (item : Item) (within : List RefreshEvent) : List RefreshEvent :=
  .started item.id item.name :: (within ++ [.completed item.id])

/-- What is announced of reports of progress. -/
def progressOf (item : Item) (reports : List Binary64) : List RefreshEvent :=
  reports.map fun progress => .progressed item.id (percentage progress)

section Readings

variable (item : Item) (events more : List RefreshEvent) (reports : List Binary64)

@[simp] theorem startsIn_append : startsIn (events ++ more) = startsIn events ++ startsIn more :=
  List.filterMap_append

@[simp] theorem startsIn_started (id : ItemId) (name : String) :
    startsIn (.started id name :: events) = id :: startsIn events := rfl

@[simp] theorem startsIn_progressOf : startsIn (progressOf item reports) = [] := by
  simp [startsIn, progressOf, RefreshEvent.started?]

@[simp] theorem startsIn_bracket :
    startsIn (bracket item events) = item.id :: startsIn events := by
  have hlast : startsIn [.completed item.id] = [] := rfl
  rw [bracket, startsIn_started, startsIn_append, hlast, List.append_nil]

end Readings

namespace World

variable {item : Item} {w mid w' last : World σ} {events more : List RefreshEvent}
  {reports : List Binary64}

/-- Between two worlds refreshes have come and gone: of them `events` have been announced, each
that started has completed, their items have no entry, and other entries are as they were. -/
structure Concluded (w w' : World σ) (events : List RefreshEvent) : Prop where
  announced : told w'.journal = told w.journal ++ events
  completed : ∀ id ∈ startsIn events, .completed id ∈ events
  tracker : w'.tracker = w.tracker.without (startsIn events)

/-- Between two worlds refreshes have been cut off: of them `events` have been announced, an
item has an entry whose refresh has started, or had one before, and has not completed, this is
so of at least one that has started, and the entries of other items are as they were. -/
structure CutOff (w w' : World σ) (events : List RefreshEvent) : Prop where
  announced : told w'.journal = told w.journal ++ events
  kept : ∀ id, id ∈ startsIn events ∨ w.tracker.isRefreshing id = true →
    .completed id ∉ events → w'.tracker.isRefreshing id = true
  left : ∃ id ∈ startsIn events, w'.tracker.isRefreshing id = true
  others : w'.tracker.without (startsIn events) = w.tracker.without (startsIn events)

/-- Between two worlds nothing has happened to the tracker but reports for one item, which is
being refreshed. -/
structure Reported (item : Item) (reports : List Binary64) (w w' : World σ) : Prop where
  announced : told w'.journal = told w.journal ++ progressOf item reports
  shown : w'.tracker.isRefreshing item.id = true
  others : w'.tracker.without [item.id] = w.tracker.without [item.id]

/-- Nothing has happened to the tracker. -/
theorem Concluded.of_same (hannounced : told w'.journal = told w.journal)
    (htracker : w'.tracker = w.tracker) : w.Concluded w' [] where
  announced := by rw [hannounced, List.append_nil]
  completed := by simp [startsIn]
  tracker := by
    rw [htracker]
    exact w.tracker.without_nil.symm

theorem Concluded.of_untracked {x : RefreshM σ α} (h : Untracked x) (w : World σ) :
    w.Concluded (after (x w)) [] := of_same (h.told_eq w) (h.tracker_eq w)

theorem Concluded.trans (h : w.Concluded mid events) (hmore : mid.Concluded w' more) :
    w.Concluded w' (events ++ more) where
  announced := by rw [hmore.announced, h.announced, List.append_assoc]
  completed id hid := by
    rw [startsIn_append, List.mem_append] at hid
    rw [List.mem_append]
    exact hid.imp (h.completed id) (hmore.completed id)
  tracker := by rw [hmore.tracker, h.tracker, Tracker.without_without, startsIn_append]

theorem Concluded.trans_cutOff (h : w.Concluded mid events) (hmore : mid.CutOff w' more) :
    w.CutOff w' (events ++ more) where
  announced := by rw [hmore.announced, h.announced, List.append_assoc]
  kept id hid hopen := by
    rw [List.mem_append, not_or] at hopen
    have hnotHere : id ∉ startsIn events := fun hstarts => hopen.1 (h.completed id hstarts)
    refine hmore.kept id ?_ hopen.2
    rw [startsIn_append, List.mem_append] at hid
    rcases hid with (hstarts | hlater) | hbefore
    · exact absurd hstarts hnotHere
    · exact Or.inl hlater
    · rw [h.tracker, Tracker.isRefreshing_without]
      exact Or.inr ⟨hnotHere, hbefore⟩
  left := by
    obtain ⟨id, hid, hshown⟩ := hmore.left
    exact ⟨id, by simp [hid], hshown⟩
  others := by
    have hsplit (t : Tracker) : t.without (startsIn (events ++ more)) =
        (t.without (startsIn more)).without (startsIn events) := by
      rw [Tracker.without_without]
      exact t.without_congr fun id => by simp [or_comm]
    rw [hsplit, hmore.others, h.tracker, Tracker.without_without, Tracker.without_without,
      startsIn_append]
    exact w.tracker.without_congr fun id => by simp [or_comm]

theorem Reported.of_untracked {x : RefreshM σ α} (h : Untracked x)
    (hshown : w.tracker.isRefreshing item.id = true) : w.Reported item [] (after (x w)) where
  announced := (h.told_eq w).trans (List.append_nil _).symm
  shown := by rw [h.tracker_eq, hshown]
  others := by rw [h.tracker_eq]

theorem Reported.trans {later : List Binary64} (h : w.Reported item reports mid)
    (hlater : mid.Reported item later w') : w.Reported item (reports ++ later) w' where
  announced := by
    rw [hlater.announced, h.announced, progressOf, progressOf, progressOf, List.map_append,
      List.append_assoc]
  shown := hlater.shown
  others := hlater.others.trans h.others

/-! ## From a start to a completion or a crash -/

theorem told_startedOn (item : Item) (w : World σ) :
    told (startedOn item w).journal = told w.journal ++ [.started item.id item.name] :=
  told_append _ _

theorem told_completedOn (item : Item) (w : World σ) :
    told (completedOn item w).journal = told w.journal ++ [.completed item.id] :=
  told_append _ _

theorem isRefreshing_startedOn (item : Item) (w : World σ) :
    (startedOn item w).tracker.isRefreshing item.id = true :=
  (w.tracker.isRefreshing_start item item.id).mpr (Or.inl rfl)

/-- The completion of a refresh takes the last entry that its start has brought. -/
theorem concluded_completedOn
    (hannounced : told last.journal = told (startedOn item w).journal ++ events)
    (hcompleted : ∀ id ∈ startsIn events, .completed id ∈ events)
    (htracker : last.tracker.without [item.id] =
      (startedOn item w).tracker.without (item.id :: startsIn events)) :
    w.Concluded (completedOn item last) (bracket item events) where
  announced := by
    rw [told_completedOn, hannounced, told_startedOn, List.append_assoc, List.append_assoc]
    rfl
  completed id hid := by
    rw [startsIn_bracket, List.mem_cons] at hid
    rcases hid with rfl | hid
    · simp [bracket]
    · simp [bracket, hcompleted id hid]
  tracker := by
    have hcomplete : (completedOn item last).tracker = last.tracker.without [item.id] :=
      last.tracker.complete_eq_without item
    rw [hcomplete, htracker, startsIn_bracket]
    exact Tracker.start_without List.mem_cons_self

theorem Concluded.around (h : (startedOn item w).Concluded last events) :
    w.Concluded (completedOn item last) (bracket item events) := by
  refine concluded_completedOn h.announced h.completed ?_
  rw [h.tracker, Tracker.without_without]
  exact Tracker.without_congr _ fun id => by simp [or_comm]

theorem Reported.concluded (h : (startedOn item w).Reported item reports last) :
    w.Concluded (completedOn item last) (bracket item (progressOf item reports)) := by
  refine concluded_completedOn h.announced (by simp) ?_
  rw [h.others, startsIn_progressOf]

theorem CutOff.around (h : (startedOn item w).CutOff last events) :
    w.CutOff last (.started item.id item.name :: events) where
  announced := by
    rw [h.announced, told_startedOn, List.append_assoc]
    rfl
  kept id hid hopen := by
    refine h.kept id ?_ fun hcompleted => hopen (List.mem_cons_of_mem _ hcompleted)
    rw [startsIn_started, List.mem_cons] at hid
    rcases hid with (rfl | hstarts) | hbefore
    · exact Or.inr (isRefreshing_startedOn item w)
    · exact Or.inl hstarts
    · exact Or.inr ((w.tracker.isRefreshing_start item id).mpr (Or.inr hbefore))
  left := by
    obtain ⟨id, hid, hshown⟩ := h.left
    exact ⟨id, by simp [hid], hshown⟩
  others := by
    have hsplit (t : Tracker) : t.without (item.id :: startsIn events) =
        (t.without (startsIn events)).without [item.id] := by
      rw [Tracker.without_without]
      exact t.without_congr fun id => by simp [or_comm]
    rw [startsIn_started, hsplit, h.others, ← hsplit]
    exact Tracker.start_without List.mem_cons_self

theorem Reported.cutOff (h : (startedOn item w).Reported item reports last) :
    w.CutOff last (.started item.id item.name :: progressOf item reports) where
  announced := by
    rw [h.announced, told_startedOn, List.append_assoc]
    rfl
  kept id hid _ := by
    by_cases hitem : id = item.id
    · rw [hitem]
      exact h.shown
    · have hbefore : w.tracker.isRefreshing id = true := by
        simpa [hitem] using hid
      have hstarted : ((startedOn item w).tracker.without [item.id]).isRefreshing id = true := by
        rw [Tracker.isRefreshing_without]
        exact ⟨by simpa using hitem, (w.tracker.isRefreshing_start item id).mpr (Or.inr hbefore)⟩
      rw [← h.others, Tracker.isRefreshing_without] at hstarted
      exact hstarted.2
  left := ⟨item.id, by simp, h.shown⟩
  others := by
    rw [startsIn_started, startsIn_progressOf, h.others]
    exact Tracker.start_without List.mem_cons_self

end World

/-- From a world an action has gone through refreshes: if it has ended, `events` have been
announced of them, and if it has crashed, one has been cut off. -/
structure World.WentThrough (w : World σ) (result : EStateM.Result Interrupt (World σ) α)
    (events : List RefreshEvent) : Prop where
  ended : ¬ World.Crashed result → w.Concluded (World.after result) events
  crashed : World.Crashed result → ∃ cut, w.CutOff (World.after result) cut

theorem World.Concluded.trans_wentThrough {w mid : World σ} {events more : List RefreshEvent}
    {result : EStateM.Result Interrupt (World σ) α} (h : w.Concluded mid events)
    (hmore : mid.WentThrough result more) : w.WentThrough result (events ++ more) where
  ended hends := h.trans (hmore.ended hends)
  crashed hcrashed := by
    obtain ⟨cut, hcut⟩ := hmore.crashed hcrashed
    exact ⟨_, h.trans_cutOff hcut⟩

/-! ## The refresh of one item -/

namespace RefreshM

variable {item : Item} {w : World σ} {x : RefreshM σ α} {reports : List Binary64}

theorem during_of_ok {a : α} {last : World σ} (h : x (startedOn item w) = .ok a last) :
    during item x w = .ok a (completedOn item last) := by rw [during_apply, h]

theorem during_of_failed {e : RefreshError} {last : World σ}
    (h : x (startedOn item w) = .error (.failed e) last) :
    during item x w = .error (.failed e) (completedOn item last) := by rw [during_apply, h]

theorem during_of_crashed {last : World σ} (h : x (startedOn item w) = .error .crashed last) :
    during item x w = .error .crashed last := by rw [during_apply, h]

theorem crashed_during :
    World.Crashed (during item x w) ↔ World.Crashed (x (startedOn item w)) := by
  cases hres : x (startedOn item w) with
  | ok a last =>
    rw [during_of_ok hres]
    exact Iff.rfl
  | error e last =>
    cases e with
    | failed e =>
      rw [during_of_failed hres]
      exact Iff.rfl
    | crashed => rw [during_of_crashed hres]

theorem after_during_of_ends (h : ¬ World.Crashed (x (startedOn item w))) :
    World.after (during item x w) = completedOn item (World.after (x (startedOn item w))) := by
  cases hres : x (startedOn item w) with
  | ok a last =>
    rw [during_of_ok hres]
    rfl
  | error e last =>
    cases e with
    | failed e =>
      rw [during_of_failed hres]
      rfl
    | crashed =>
      rw [hres] at h
      exact absurd trivial h

theorem after_during_of_crashed (h : World.Crashed (x (startedOn item w))) :
    World.after (during item x w) = World.after (x (startedOn item w)) := by
  cases hres : x (startedOn item w) with
  | ok a last =>
    rw [hres] at h
    exact h.elim
  | error e last =>
    cases e with
    | failed e =>
      rw [hres] at h
      exact h.elim
    | crashed => rw [during_of_crashed hres]

/-- A refresh within which progress is reported for its item alone. -/
theorem during_reported
    (h : (startedOn item w).Reported item reports (World.after (x (startedOn item w)))) :
    w.WentThrough (during item x w) (bracket item (progressOf item reports)) where
  ended hends := by
    rw [crashed_during] at hends
    rw [after_during_of_ends hends]
    exact h.concluded
  crashed hcrashed := by
    rw [crashed_during] at hcrashed
    rw [after_during_of_crashed hcrashed]
    exact ⟨_, h.cutOff⟩

/-- A refresh within which others come and go. -/
theorem during_wentThrough {events : List RefreshEvent}
    (h : (startedOn item w).WentThrough (x (startedOn item w)) events) :
    w.WentThrough (during item x w) (bracket item events) where
  ended hends := by
    rw [crashed_during] at hends
    rw [after_during_of_ends hends]
    exact (h.ended hends).around
  crashed hcrashed := by
    rw [crashed_during] at hcrashed
    rw [after_during_of_crashed hcrashed]
    obtain ⟨cut, hcut⟩ := h.crashed hcrashed
    exact ⟨_, hcut.around⟩

/-- Reports for an item that is being refreshed are all announced. -/
theorem forM_reportLeniently (reports : List Binary64)
    (h : w.tracker.isRefreshing item.id = true) :
    ∃ after, reports.forM (reportLeniently item) w = .ok () after ∧
      after.journal = w.journal ++ (progressOf item reports).map .announced ∧
      after.cancelled = w.cancelled ∧ after.tracker.isRefreshing item.id = true ∧
      after.tracker.without [item.id] = w.tracker.without [item.id] := by
  induction reports generalizing w with
  | nil => exact ⟨w, rfl, by simp [progressOf], rfl, h, rfl⟩
  | cons progress rest ih =>
    have hreport : w.tracker.report item progress = .ok
        (⟨Tracker.place item.id (percentage progress) w.tracker.active⟩,
          .progressed item.id (percentage progress)) := by
      rw [Tracker.report, if_pos h]
    have hmid : reportedOn item progress w = { w with
        tracker := ⟨Tracker.place item.id (percentage progress) w.tracker.active⟩
        journal := w.journal ++ [.announced (.progressed item.id (percentage progress))] } := by
      rw [reportedOn, hreport]
    have hshown : (reportedOn item progress w).tracker.isRefreshing item.id = true := by
      rw [tracker_reportedOn, Tracker.isRefreshing_reported]
      exact h
    obtain ⟨after, hrest, hjournal, hcancelled, hafter, hothers⟩ := ih hshown
    refine ⟨after, ?_, ?_, ?_, hafter, ?_⟩
    · exact (bind_of_ok (reportLeniently_apply item progress w)).trans hrest
    · rw [hjournal, hmid, progressOf, progressOf, List.map_cons, List.map_cons, List.append_assoc]
      rfl
    · rw [hcancelled, hmid]
    · rw [hothers, tracker_reportedOn]
      exact Tracker.reported_without progress (List.mem_singleton_self _)

end RefreshM

end MediaRefresh
