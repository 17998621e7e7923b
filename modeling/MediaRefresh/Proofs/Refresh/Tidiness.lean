import MediaRefresh.Proofs.Refresh.Artist
import MediaRefresh.Proofs.Refresh.FanOut

/-!
# Refresh: the tracker after a call

A call that ends, with whatever result, has taken back every entry that it made.  What it has
announced are, beside changes of items, the refreshes that it has attempted, each from its
start to its completion, with those of physical folders inside that of their collection.
-/

set_option autoImplicit false

namespace MediaRefresh

open Numeric RefreshM

variable {σ α : Type}

/-! ## Announcements about one item -/

/-- What is announced about one item. -/
def about (id : ItemId) (events : List RefreshEvent) : List RefreshEvent :=
  events.filter (·.item = id)

section About

variable (item : Item) (events more : List RefreshEvent) (reports : List Binary64) {id : ItemId}

@[simp] theorem about_append : about id (events ++ more) = about id events ++ about id more :=
  List.filter_append events more

theorem about_progressOf_same (h : item.id = id) :
    about id (progressOf item reports) = progressOf item reports := by
  refine List.filter_eq_self.mpr fun e he => ?_
  obtain ⟨progress, -, rfl⟩ := List.mem_map.mp he
  exact decide_eq_true h

theorem about_progressOf_other (h : item.id ≠ id) : about id (progressOf item reports) = [] := by
  refine List.filter_eq_nil_iff.mpr fun e he => ?_
  obtain ⟨progress, -, rfl⟩ := List.mem_map.mp he
  simp [RefreshEvent.item, h]

theorem about_bracket_same (h : item.id = id) :
    about id (bracket item events) = bracket item (about id events) := by
  simp [about, bracket, RefreshEvent.item, h]

theorem about_bracket_other (h : item.id ≠ id) :
    about id (bracket item events) = about id events := by
  simp [about, bracket, RefreshEvent.item, h]

end About

/-! ## Attempts -/

/-- The refresh of an item with the progress that was reported for it. -/
structure Attempt where
  item : Item
  reports : List Binary64

namespace Attempt

/-- What is announced of a refresh. -/
def events (a : Attempt) : List RefreshEvent := bracket a.item (progressOf a.item a.reports)

/-- What is announced of a refresh with others inside. -/
def enclosing (a : Attempt) (inside : List Attempt) : List RefreshEvent :=
  bracket a.item (progressOf a.item a.reports ++ inside.flatMap events)

variable {a b : Attempt} {inside : List Attempt} {id : ItemId}

@[simp] theorem enclosing_nil (a : Attempt) : a.enclosing [] = a.events := by
  rw [enclosing, List.flatMap_nil, List.append_nil, events]

theorem startsIn_flatMap_events (inside : List Attempt) :
    startsIn (inside.flatMap events) = inside.map (·.item.id) := by
  induction inside with
  | nil => rfl
  | cons a rest ih => simp [events, ih]

theorem startsIn_enclosing (a : Attempt) (inside : List Attempt) :
    startsIn (a.enclosing inside) = (a :: inside).map (·.item.id) := by
  simp [enclosing, startsIn_flatMap_events]

theorem about_events_same (h : a.item.id = id) : about id a.events = a.events := by
  rw [events, about_bracket_same _ _ h, about_progressOf_same _ _ h]

theorem about_events_other (h : a.item.id ≠ id) : about id a.events = [] := by
  rw [events, about_bracket_other _ _ h, about_progressOf_other _ _ h]

theorem about_flatMap_of_absent (h : id ∉ inside.map (·.item.id)) :
    about id (inside.flatMap events) = [] := by
  induction inside with
  | nil => rfl
  | cons a rest ih =>
    rw [List.map_cons, List.mem_cons, not_or] at h
    rw [List.flatMap_cons, about_append, about_events_other (Ne.symm h.1), ih h.2]
    rfl

theorem about_flatMap_of_mem (h : (inside.map (·.item.id)).Nodup) (hb : b ∈ inside) :
    about b.item.id (inside.flatMap events) = b.events := by
  induction inside with
  | nil => cases hb
  | cons a rest ih =>
    rw [List.map_cons, List.nodup_cons] at h
    rw [List.flatMap_cons, about_append]
    rcases List.mem_cons.mp hb with rfl | hb
    · rw [about_events_same rfl, about_flatMap_of_absent h.1, List.append_nil]
    · have hother : a.item.id ≠ b.item.id := fun hsame => h.1 (hsame ▸ List.mem_map_of_mem hb)
      rw [about_events_other hother, ih h.2 hb, List.nil_append]

/-- Among refreshes of different items what is announced about one is what its own
announces. -/
theorem about_enclosing_of_mem (h : ((a :: inside).map (·.item.id)).Nodup)
    (hb : b ∈ a :: inside) : about b.item.id (a.enclosing inside) = b.events := by
  rw [List.map_cons, List.nodup_cons] at h
  rcases List.mem_cons.mp hb with rfl | hb
  · rw [enclosing, about_bracket_same _ _ rfl, about_append, about_progressOf_same _ _ rfl,
      about_flatMap_of_absent h.1, List.append_nil, events]
  · have hother : a.item.id ≠ b.item.id := fun hsame => h.1 (hsame ▸ List.mem_map_of_mem hb)
    rw [enclosing, about_bracket_other _ _ hother, about_append, about_progressOf_other _ _ hother,
      about_flatMap_of_mem h.2 hb, List.nil_append]

end Attempt

/-! ## Folders -/

theorem FolderTurn.attempted (t : FolderTurn σ) (m : Manager σ) (options : RefreshOptions) :
    ∃ a : Attempt, a.item = t.folder ∧
      t.begins.WentThrough (t.outcome m options) a.events := by
  obtain ⟨own, reports, -, -, -, -, hreported⟩ :=
    m.refreshThenValidate_reported t.folder options true
      (World.isRefreshing_startedOn t.folder t.begins)
  exact ⟨⟨t.folder, reports⟩, rfl, during_reported hreported⟩

/-- The folders that have their turns are attempted one after the other. -/
theorem FanOut.attempted {m : Manager σ} {options : RefreshOptions} {folders : List Item}
    {w : World σ} {turns : List (FolderTurn σ)}
    {result : EStateM.Result Interrupt (World σ) Unit}
    (h : FanOut m options folders w turns result) :
    ∃ attempts : List Attempt, attempts.map Attempt.item = turns.map FolderTurn.folder ∧
      w.WentThrough result (attempts.flatMap Attempt.events) := by
  induction h with
  | done w => exact ⟨[], rfl, fun _ => .of_untracked (.pure ()) w, False.elim⟩
  | @halted _ _ w _ => exact ⟨[], rfl, fun _ => .of_untracked (.pure ()) w, False.elim⟩
  | @stopped t _ _ _ =>
    obtain ⟨a, hitem, hthrough⟩ := t.attempted m options
    refine ⟨[a], congrArg (· :: []) hitem, ?_⟩
    rw [List.flatMap_singleton]
    exact hthrough
  | @passed t _ _ _ _ hpasses _ ih =>
    obtain ⟨a, hitem, hthrough⟩ := t.attempted m options
    obtain ⟨attempts, hitems, hrest⟩ := ih
    have hfirst := hthrough.ended (FolderTurn.not_crashed_of_passes hpasses)
    refine ⟨a :: attempts, congrArg₂ _ hitem hitems, ?_⟩
    exact hfirst.trans_wentThrough hrest

namespace Manager

/-! ## An item and its folders -/

variable (m : Manager σ) (item : Item) (options : RefreshOptions) (w : World σ)

/-- The physical folders that the refresh of an item comes upon, and the world in which their
turns begin. -/
def foldersFrom : List Item × World σ :=
  match m.refreshSingle item options (startedOn item w) with
  | .ok _ own =>
    if item.kind = .collectionFolder then
      (m.host.physicalFolders own.state item, own.noting (.called (.listFolders item)))
    else ([], own)
  | .error _ own => ([], own)

/-- The physical folders that the refresh of an item comes upon. -/
def foldersIn : List Item := (m.foldersFrom item options w).1

/-- The turns of folders within the refresh of an item. -/
def turnsIn : List (FolderTurn σ) :=
  m.turnsOf options (m.foldersIn item options w) (m.foldersFrom item options w).2

/-- A refresh of one item that is all there is to do. -/
theorem refreshItem_alone (reports : List Binary64) (hfolders : m.foldersIn item options w = [])
    (h : (startedOn item w).Reported item reports
      (World.after (m.refreshWithin item options (startedOn item w)))) :
    ∃ (own : Attempt) (folders : List Attempt), own.item = item ∧
      folders.map Attempt.item = (m.turnsIn item options w).map FolderTurn.folder ∧
      w.WentThrough (m.refreshItem item options w) (own.enclosing folders) := by
  refine ⟨⟨item, reports⟩, [], rfl, ?_, ?_⟩
  · rw [turnsIn, hfolders]
    rfl
  · rw [Attempt.enclosing_nil, refreshItem_eq]
    exact during_reported h

/-- A collection whose own refresh succeeds goes on with its folders. -/
theorem refreshItem_around_folders {update : Update} {own : World σ}
    (hkind : item.kind = .collectionFolder)
    (hown : m.refreshSingle item options (startedOn item w) = .ok update own) :
    ∃ folders : List Attempt,
      folders.map Attempt.item = (m.turnsIn item options w).map FolderTurn.folder ∧
      w.WentThrough (m.refreshItem item options w) (Attempt.enclosing ⟨item, []⟩ folders) := by
  have hfrom : m.foldersFrom item options w = (m.host.physicalFolders own.state item,
      own.noting (.called (.listFolders item))) := by
    rw [foldersFrom, hown]
    exact if_pos hkind
  have hfirst := World.Concluded.of_untracked (m.refreshSingle_untracked item options)
    (startedOn item w)
  rw [hown] at hfirst
  have hlisted : own.Concluded (own.noting (.called (.listFolders item))) [] :=
    .of_untracked (.note rfl) own
  obtain ⟨folders, hfolders, hthrough⟩ := (m.refreshFolders_fanOut options
    (m.host.physicalFolders own.state item)
    (own.noting (.called (.listFolders item)))).attempted
  refine ⟨folders, ?_, ?_⟩
  · rw [hfolders, turnsIn, foldersIn, hfrom]
  · rw [refreshItem_eq]
    refine during_wentThrough ?_
    rw [m.refreshWithin_of_collection hkind hown]
    exact (hfirst.trans hlisted).trans_wentThrough hthrough

theorem refreshItem_attempted :
    ∃ (own : Attempt) (folders : List Attempt), own.item = item ∧
      folders.map Attempt.item = (m.turnsIn item options w).map FolderTurn.folder ∧
      w.WentThrough (m.refreshItem item options w) (own.enclosing folders) := by
  have hshown := World.isRefreshing_startedOn item w
  have hsingle := m.refreshSingle_untracked item options
  cases hown : m.refreshSingle item options (startedOn item w) with
  | error e own =>
    -- neither folders nor children have their turn behind a refresh that fails
    have hfrom : m.foldersFrom item options w = ([], own) := by rw [foldersFrom, hown]
    have hwithin : m.refreshWithin item options (startedOn item w) = .error e own :=
      bind_of_error hown
    have hreported := World.Reported.of_untracked hsingle hshown
    rw [hown] at hreported
    refine m.refreshItem_alone item options w [] (congrArg Prod.fst hfrom) ?_
    rw [hwithin]
    exact hreported
  | ok update own =>
    by_cases hkind : item.kind = .collectionFolder
    · exact ⟨_, (m.refreshItem_around_folders item options w hkind hown).imp fun _ h => ⟨rfl, h⟩⟩
    · have hfrom : m.foldersFrom item options w = ([], own) := by
        rw [foldersFrom, hown]
        exact if_neg hkind
      have hfolders := congrArg Prod.fst hfrom
      by_cases hfolder : item.kind.isFolder = true
      · obtain ⟨-, reports, -, -, -, -, hreported⟩ :=
          m.refreshThenValidate_reported item options false hshown
        refine m.refreshItem_alone item options w reports hfolders ?_
        unfold refreshWithin
        simp only [if_neg hkind, if_pos hfolder]
        exact hreported
      · refine m.refreshItem_alone item options w [] hfolders ?_
        unfold refreshWithin
        simp only [if_neg hkind, if_neg hfolder]
        exact .of_untracked (.bind hsingle fun _ => .pure ()) hshown

/-! ## An artist -/

variable {m item options w}

theorem GroupingsEnd.concluded {groupings : List Item}
    {result : EStateM.Result Interrupt (World σ) Unit}
    (h : m.GroupingsEnd options w groupings result) : w.Concluded (World.after result) [] := by
  have hquiet (l : List Item) : told (l.map (groupingLine options)) = [] := by
    simp [told, announcements, groupingLine, Entry.announced?]
  cases h with
  | done journal tracker =>
    refine .of_same ?_ tracker
    rw [World.after, journal, told_append, hquiet, List.append_nil]
  | @crashed before behind grouping mid passed crashes journal tracker =>
    have hlast : told (m.answeredOn grouping options true mid).journal = told mid.journal :=
      (told_append _ _).trans (List.append_nil _)
    refine .of_same ?_ tracker
    rw [World.after, hlast, journal, told_append, hquiet, List.append_nil]

theorem GroupingsEnd.eq_crashed {groupings : List Item} {e : Interrupt} {last : World σ}
    (h : m.GroupingsEnd options w groupings (.error e last)) : e = .crashed := by
  cases h with
  | crashed => rfl

variable (m item options w)

theorem artistOutcome_attempted :
    w.WentThrough (artistOutcome item (m.refreshSingle item options (startedOn item w)))
      (Attempt.events ⟨item, []⟩) := by
  have hreported := World.Reported.of_untracked (m.refreshSingle_untracked item options)
    (World.isRefreshing_startedOn item w)
  cases hown : m.refreshSingle item options (startedOn item w) with
  | ok update last =>
    rw [hown] at hreported
    exact ⟨fun _ => hreported.concluded, False.elim⟩
  | error e last =>
    rw [hown] at hreported
    cases e with
    | crashed => exact ⟨fun hends => absurd trivial hends, fun _ => ⟨_, hreported.cutOff⟩⟩
    | failed e =>
      cases e with
      | cancelled => exact ⟨fun _ => hreported.concluded, False.elim⟩
      | _ => exact ⟨fun _ => hreported.concluded, False.elim⟩

/-- A crash in the validations is the end of the refresh of an artist.  After them the artist
is attempted unless there has been a cancellation. -/
theorem refreshArtist_attempted :
    (∃ last, m.refreshArtist item options w = .error .crashed last ∧ w.Concluded last []) ∨
      ∃ mid attempts, m.prepareArtist item options w = .ok () mid ∧
        attempts = (if mid.cancelled then [] else [⟨item, []⟩]) ∧
        w.WentThrough (m.refreshArtist item options w) (attempts.flatMap Attempt.events) := by
  have hend := m.prepareArtist_end item options w
  have hlisted : w.Concluded (w.noting (.called (.listItems (.albumsOf item.id)))) [] :=
    .of_untracked (.note rfl) w
  have hprepared := hlisted.trans hend.concluded
  cases hprepare : m.prepareArtist item options w with
  | error e last =>
    rw [hprepare] at hend hprepared
    obtain rfl := hend.eq_crashed
    exact Or.inl ⟨last, m.refreshArtist_of_crashed item options hprepare, hprepared⟩
  | ok done mid =>
    have hresult := m.refreshArtist_of_prepared item options hprepare
    rw [hprepare] at hprepared
    refine Or.inr ⟨mid, _, rfl, rfl, ?_⟩
    rw [hresult]
    split
    · exact ⟨fun _ => hprepared, False.elim⟩
    · rw [List.flatMap_singleton]
      exact hprepared.trans_wentThrough (m.artistOutcome_attempted item options mid)

end Manager

/-! ## Tidiness -/

/-- Between two worlds `attempts` have been made to refresh items, with `events` announced of
refreshes.  If none of the items had an entry, the tracker is as it was; and if they are
different, what is announced about one is what its attempt announces. -/
structure World.Tidied (w w' : World σ) (items : List Item) (attempts : List Attempt)
    (events : List RefreshEvent) : Prop where
  announced : told w'.journal = told w.journal ++ events
  tracker : (∀ i ∈ items, w.tracker.isRefreshing i.id = false) → w'.tracker = w.tracker
  apart : (items.map Item.id).Nodup → ∀ a ∈ attempts, about a.item.id events = a.events

theorem World.Concluded.tidied_nothing {w w' : World σ} {items : List Item}
    (h : w.Concluded w' []) : w.Tidied w' items [] [] where
  announced := h.announced
  tracker _ := h.tracker.trans w.tracker.without_nil
  apart _ a ha := by cases ha

/-- The attempts are for items in order, not necessarily for all of them. -/
theorem World.Concluded.tidied {w w' : World σ} {items : List Item} {own : Attempt}
    {inside : List Attempt} (h : w.Concluded w' (own.enclosing inside))
    (hitems : (own :: inside).map Attempt.item <+: items) :
    w.Tidied w' items (own :: inside) (own.enclosing inside) where
  announced := h.announced
  tracker habsent := by
    rw [h.tracker, Attempt.startsIn_enclosing]
    refine Tracker.without_of_absent fun id hid => ?_
    obtain ⟨a, ha, rfl⟩ := List.mem_map.mp hid
    exact habsent a.item (hitems.subset (List.mem_map_of_mem ha))
  apart hdistinct a ha := by
    have hids : (own :: inside).map (·.item.id) <+: items.map Item.id := by
      have hmapped := hitems.map Item.id
      rwa [List.map_map] at hmapped
    exact Attempt.about_enclosing_of_mem (hdistinct.sublist hids.sublist) ha

namespace Manager

/-- Refreshes that have ended, of an item or of an artist, leave the tracker as it was before
if the items that they come upon had no entries.  The folders of a collection are attempted in
order inside the refresh of the collection, and an artist is attempted unless there has been a
cancellation by the end of the validations. -/
theorem ended_refreshes_tidied (m : Manager σ) (item : Item) (options : RefreshOptions)
    (w : World σ) :
    (¬ World.Crashed (m.refreshItem item options w) →
      ∃ (own : Attempt) (folders : List Attempt), own.item = item ∧
        folders.map Attempt.item = (m.turnsIn item options w).map FolderTurn.folder ∧
        folders.map Attempt.item <+: m.foldersIn item options w ∧
        w.Tidied (World.after (m.refreshItem item options w))
          (item :: m.foldersIn item options w) (own :: folders) (own.enclosing folders)) ∧
    (¬ World.Crashed (m.refreshArtist item options w) →
      ∃ mid attempts, m.prepareArtist item options w = .ok () mid ∧
        attempts = (if mid.cancelled then [] else [⟨item, []⟩]) ∧
        w.Tidied (World.after (m.refreshArtist item options w)) [item] attempts
          (attempts.flatMap Attempt.events)) := by
  constructor
  · intro hends
    obtain ⟨own, folders, rfl, hturns, hthrough⟩ := m.refreshItem_attempted item options w
    have hfolders : folders.map Attempt.item <+: m.foldersIn own.item options w :=
      hturns ▸ (m.refreshFolders_fanOut options _ _).folders_inOrder
    exact ⟨own, folders, rfl, hturns, hfolders,
      (hthrough.ended hends).tidied ((List.prefix_cons_inj _).mpr hfolders)⟩
  · intro hends
    obtain ⟨last, hcrashed, -⟩ | ⟨mid, attempts, hprepare, hattempts, hthrough⟩ :=
      m.refreshArtist_attempted item options w
    · rw [hcrashed] at hends
      exact absurd trivial hends
    · refine ⟨mid, attempts, hprepare, hattempts, ?_⟩
      have hconcluded := hthrough.ended hends
      split at hattempts
      · subst hattempts
        exact hconcluded.tidied_nothing
      · subst hattempts
        rw [List.flatMap_singleton, ← Attempt.enclosing_nil] at hconcluded ⊢
        exact hconcluded.tidied (List.prefix_refl _)

open Rehearsal in
/-- A shelf with a damaged folder, and an artist beside it. -/
theorem shelf_tidied :
    (∃ (own : Attempt) (folders : List Attempt), own.item = shelf ∧
      folders.map Attempt.item = [attic, cellar] ∧
      told (World.after ((shelves damaged).refreshItem shelf .standard
        (.fresh emptyStage))).journal = own.enclosing folders ∧
      (∀ a ∈ own :: folders, about a.item.id (own.enclosing folders) = a.events) ∧
      (World.after ((shelves damaged).refreshItem shelf .standard
        (.fresh emptyStage))).tracker = .empty) ∧
    (World.after ((shelves damaged).refreshArtist (.bare .zero .musicArtist "Nina") .standard
      (.fresh emptyStage))).tracker = .empty := by
  constructor
  · obtain ⟨own, folders, hown, hturns, -, htidied⟩ :=
      (ended_refreshes_tidied (shelves damaged) shelf .standard (.fresh emptyStage)).1 id
    refine ⟨own, folders, hown, hturns, htidied.announced, htidied.apart ?_, htidied.tracker ?_⟩
    · decide
    · intro i hi
      rfl
  · obtain ⟨mid, attempts, -, -, htidied⟩ := (ended_refreshes_tidied (shelves damaged)
      (.bare .zero .musicArtist "Nina") .standard (.fresh emptyStage)).2 id
    exact htidied.tracker fun i hi => rfl

end Manager

end MediaRefresh
