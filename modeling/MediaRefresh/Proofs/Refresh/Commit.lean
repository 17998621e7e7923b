import MediaRefresh.Proofs.Refresh.Gather
import MediaRefresh.Rehearsal.Stage

/-!
# Refresh: commit, result and announcement

A refresh that consults the providers persists the item at most once, and announces
an update only after it has.  Its result agrees with both, with one exception: a
cancellation that comes between the commit and the turn of a saver makes the refresh
fail although the item has been persisted.
-/

set_option autoImplicit false

namespace MediaRefresh

open RefreshM

variable {σ : Type}

/-! ## What a stretch of a journal tells -/

/-- What was persisted, in order, each with its update. -/
def commits (lines : List Entry) : List (Item × Update) := lines.filterMap Entry.persisted?

/-- What was announced, in order. -/
def announcements (lines : List Entry) : List RefreshEvent := lines.filterMap Entry.announced?

/-- Which savers were called, in order. -/
def saves (lines : List Entry) : List String := lines.filterMap Entry.saved?

/-- Whether a line is one of a refresh that consults the providers. -/
def Entry.consults : Entry → Bool
  | called (.updateItem ..) | called (.save ..) | persisted .. => true
  | e => e.gathers

/-- The lines of a commit that succeeds. -/
def commitLines (item : Item) (update : Update) : List Entry :=
  [.called (.updateItem item update), .persisted item update]

/-- The lines of the savers that apply to an item after an update. -/
def saveLines (savers : List (Saver σ)) (item : Item) (policy : Policy) (update : Update) :
    List Entry :=
  (savers.filter fun s => s.applies item policy update false).map fun s =>
    .called (.save s.name item)

section Readings

variable {lines more : List Entry} {savers : List (Saver σ)} {item : Item} {policy : Policy}
  {update : Update}

@[simp] theorem commits_append : commits (lines ++ more) = commits lines ++ commits more :=
  List.filterMap_append

@[simp] theorem announcements_append :
    announcements (lines ++ more) = announcements lines ++ announcements more :=
  List.filterMap_append

@[simp] theorem saves_append : saves (lines ++ more) = saves lines ++ saves more :=
  List.filterMap_append

theorem commits_of_gathers (h : ∀ e ∈ lines, e.gathers = true) : commits lines = [] := by
  refine List.filterMap_eq_nil_iff.mpr fun e he => ?_
  cases e with
  | persisted item update => cases h _ he
  | _ => rfl

theorem announcements_of_gathers (h : ∀ e ∈ lines, e.gathers = true) :
    announcements lines = [] := by
  refine List.filterMap_eq_nil_iff.mpr fun e he => ?_
  cases e with
  | announced e => cases h _ he
  | _ => rfl

theorem saves_of_gathers (h : ∀ e ∈ lines, e.gathers = true) : saves lines = [] := by
  refine List.filterMap_eq_nil_iff.mpr fun e he => ?_
  cases e with
  | called c =>
    cases c with
    | save saver item => cases h _ he
    | _ => rfl
  | _ => rfl

theorem consults_of_gathers (h : ∀ e ∈ lines, e.gathers = true) :
    ∀ e ∈ lines, e.consults = true := by
  intro e he
  unfold Entry.consults
  split
  · rfl
  · rfl
  · rfl
  · exact h e he

theorem consults_commitLines : ∀ e ∈ commitLines item update, e.consults = true := by
  simp [commitLines, Entry.consults]

theorem consults_saveLines :
    ∀ e ∈ saveLines savers item policy update, e.consults = true := by
  intro e he
  obtain ⟨s, -, rfl⟩ := List.mem_map.mp he
  rfl

@[simp] theorem commits_commitLines : commits (commitLines item update) = [(item, update)] := rfl

@[simp] theorem announcements_commitLines : announcements (commitLines item update) = [] := rfl

@[simp] theorem saves_commitLines : saves (commitLines item update) = [] := rfl

@[simp] theorem commits_saveLines : commits (saveLines savers item policy update) = [] := by
  simp [commits, saveLines, Entry.persisted?]

@[simp] theorem announcements_saveLines :
    announcements (saveLines savers item policy update) = [] := by
  simp [announcements, saveLines, Entry.announced?]

@[simp] theorem saves_saveLines : saves (saveLines savers item policy update) =
    (savers.filter fun s => s.applies item policy update false).map Saver.name := by
  simp [saves, saveLines, Entry.saved?, Function.comp_def]

end Readings

/-! ## The savers -/

/-- How the turns of savers end: all of them came, or a cancellation was found at the
turn of one, and those before it have been called. -/
inductive SaversEnd (savers : List (Saver σ)) (item : Item) (policy : Policy) (update : Update)
    (w : World σ) : EStateM.Result Interrupt (World σ) Unit → Prop where
  | all {w' : World σ} (journal : w'.journal = w.journal ++ saveLines savers item policy update) :
      SaversEnd savers item policy update w (.ok () w')
  | stopped {w' : World σ} {before after : List (Saver σ)} {s : Saver σ}
      (split : savers = before ++ s :: after) (cancelled : w'.cancelled = true)
      (journal : w'.journal = w.journal ++ saveLines before item policy update) :
      SaversEnd savers item policy update w (.error (.failed .cancelled) w')

theorem Saver.turn_of_cancelled (s : Saver σ) (item : Item) (policy : Policy) (update : Update)
    {w : World σ} (h : w.cancelled = true) :
    s.turn item policy update w = .error (.failed .cancelled) w :=
  bind_of_error (checkCancelled_of_cancelled h)

/-- The world after the call of a saver. -/
def Saver.saved (s : Saver σ) (item : Item) (w : World σ) : World σ :=
  { w with
    state := (s.save item w.surroundings).state
    cancelled := w.cancelled || (s.save item w.surroundings).fires
    journal := w.journal ++ [.called (.save s.name item)] }

/-- What a saver answers makes no difference. -/
theorem Saver.turn_of_active (s : Saver σ) (item : Item) (policy : Policy) (update : Update)
    {w : World σ} (h : w.cancelled = false) :
    s.turn item policy update w =
      .ok () (if s.applies item policy update false then s.saved item w else w) := by
  unfold Saver.turn
  rw [bind_of_ok (checkCancelled_of_active h)]
  split
  · rfl
  · rfl

theorem SaversEnd.cons {s : Saver σ} {savers : List (Saver σ)} {item : Item} {policy : Policy}
    {update : Update} {w mid : World σ} {result : EStateM.Result Interrupt (World σ) Unit}
    (hturn : mid.journal = w.journal ++ saveLines [s] item policy update)
    (h : SaversEnd savers item policy update mid result) :
    SaversEnd (s :: savers) item policy update w result := by
  have hlines (rest : List (Saver σ)) : mid.journal ++ saveLines rest item policy update =
      w.journal ++ saveLines (s :: rest) item policy update := by
    rw [hturn, List.append_assoc, saveLines, saveLines, ← List.map_append, ← List.filter_append]
    rfl
  cases h with
  | all hjournal => exact .all (hjournal.trans (hlines savers))
  | @stopped w' before after u hsplit hcancelled hjournal =>
    have hsplit' : s :: savers = (s :: before) ++ u :: after := congrArg (s :: ·) hsplit
    exact .stopped hsplit' hcancelled (hjournal.trans (hlines before))

/-- By induction on the savers, each at its turn. -/
theorem saversEnd_forM (savers : List (Saver σ)) (item : Item) (policy : Policy)
    (update : Update) (w : World σ) :
    SaversEnd savers item policy update w
      (savers.forM (fun s => s.turn item policy update) w) := by
  induction savers generalizing w with
  | nil => exact .all (List.append_nil _).symm
  | cons s rest ih =>
    change SaversEnd (s :: rest) item policy update w
      ((s.turn item policy update >>= fun _ => rest.forM fun s => s.turn item policy update) w)
    cases hcancelled : w.cancelled with
    | true =>
      rw [bind_of_error (s.turn_of_cancelled item policy update hcancelled)]
      have hsplit : s :: rest = [] ++ s :: rest := rfl
      exact .stopped hsplit hcancelled (List.append_nil _).symm
    | false =>
      rw [bind_of_ok (s.turn_of_active item policy update hcancelled)]
      refine (ih _).cons ?_
      cases happlies : s.applies item policy update false with
      | true => simp [saveLines, happlies, Saver.saved]
      | false => simp [saveLines, happlies]

namespace Manager

variable (m : Manager σ)

/-- How a refresh that consults the providers ends.  Before the commit it has only
gathered, and after it only savers are called. -/
inductive ConsultEnd (w : World σ) : EStateM.Result Interrupt (World σ) Update → Prop where
  /-- nothing has changed -/
  | unchanged {w' : World σ} {update : Update} {gathered : List Entry}
      (gathers : ∀ e ∈ gathered, e.gathers = true) (empty : update.isEmpty = true)
      (journal : w'.journal = w.journal ++ gathered) : ConsultEnd w (.ok update w')
  /-- the item has been persisted and all savers have had their turn -/
  | committed {w' : World σ} {update : Update} {gathered : List Entry} {item : Item}
      {policy : Policy} (gathers : ∀ e ∈ gathered, e.gathers = true)
      (journal : w'.journal = w.journal ++ (gathered ++
        (commitLines item update ++ saveLines m.providers.savers item policy update))) :
      ConsultEnd w (.ok update w')
  /-- an error came before the commit -/
  | failed {w' : World σ} {e : RefreshError} {gathered : List Entry}
      (gathers : ∀ e ∈ gathered, e.gathers = true)
      (journal : w'.journal = w.journal ++ gathered) : ConsultEnd w (.error (.failed e) w')
  /-- the item could not be persisted -/
  | refused {w' : World σ} {update : Update} {e : RefreshError} {gathered : List Entry}
      {item : Item} (gathers : ∀ e ∈ gathered, e.gathers = true)
      (journal : w'.journal = w.journal ++ (gathered ++ [.called (.updateItem item update)])) :
      ConsultEnd w (.error (.failed e) w')
  /-- the item has been persisted and a cancellation was found at the turn of a saver -/
  | stopped {w' : World σ} {update : Update} {gathered : List Entry} {item : Item}
      {policy : Policy} {before after : List (Saver σ)} {s : Saver σ}
      (gathers : ∀ e ∈ gathered, e.gathers = true)
      (split : m.providers.savers = before ++ s :: after) (cancelled : w'.cancelled = true)
      (journal : w'.journal = w.journal ++ (gathered ++
        (commitLines item update ++ saveLines before item policy update))) :
      ConsultEnd w (.error (.failed .cancelled) w')

theorem persist_end (context : String) (item : Item) (update : Update) (w : World σ) :
    (∃ w', m.persist context item update w = .ok () w' ∧
      w'.journal = w.journal ++ commitLines item update) ∨
    ∃ w' e, m.persist context item update w = .error (.failed e) w' ∧
      w'.journal = w.journal ++ [.called (.updateItem item update)] := by
  unfold persist
  rw [bind_of_ok (ask_apply _ _ w)]
  cases (m.host.updateItem item update w.surroundings).outcome with
  | ok done => exact Or.inl ⟨_, rfl, by simp [commitLines]⟩
  | error f => exact Or.inr ⟨_, _, rfl, rfl⟩

/-- A commit persists the item, with the time of its refresh, and runs the savers, or
it fails to persist it. -/
theorem commit_end (item : Item) (update : Update) (w : World σ) :
    ∃ stamped,
      (∃ mid policy, mid.journal = w.journal ++ commitLines stamped update ∧
        SaversEnd m.providers.savers stamped policy update mid (m.commit item update w)) ∨
      ∃ w' e, m.commit item update w = .error (.failed e) w' ∧
        w'.journal = w.journal ++ [.called (.updateItem stamped update)] := by
  have hstamp : m.stamp item w =
      .ok { item with lastRefreshed := some (m.host.now w.state) } w := rfl
  unfold commit
  rw [bind_of_ok hstamp]
  obtain ⟨mid, hpersist, hjournal⟩ | ⟨w', e, hpersist, hjournal⟩ :=
    m.persist_end ("updating item " ++ item.id.text)
      { item with lastRefreshed := some (m.host.now w.state) } update w
  · rw [bind_of_ok hpersist]
    exact ⟨_, Or.inl ⟨mid, _, hjournal, saversEnd_forM _ _ _ _ mid⟩⟩
  · rw [bind_of_error hpersist]
    exact ⟨_, Or.inr ⟨w', e, rfl, hjournal⟩⟩

theorem refreshByProviders_end (item : Item) (options : RefreshOptions) (w : World σ) :
    m.ConsultEnd w (m.refreshByProviders item options w) := by
  obtain ⟨gathered, hgathered, hgathers⟩ := (m.gather_onlyGathers item options).adds w
  unfold refreshByProviders
  cases hgather : m.gather item options w with
  | error e mid =>
    rw [hgather] at hgathered
    rw [bind_of_error hgather]
    cases e with
    | failed e => exact .failed hgathers hgathered
    | crashed => exact ((m.gather_onlyGathers item options).noCrash w mid hgather).elim
  | ok found mid =>
    obtain ⟨item', update⟩ := found
    have hmid : mid.journal = w.journal ++ gathered := by rwa [hgather] at hgathered
    rw [bind_of_ok hgather]
    dsimp only
    split
    · rename_i hempty
      exact .unchanged hgathers (Bool.and_eq_true_iff.mp hempty).1 hmid
    · obtain ⟨stamped, ⟨start, policy, hstart, hsavers⟩ | ⟨w', e, hcommit, hjournal⟩⟩ :=
        m.commit_end item' update mid
      · -- From here on only savers add to the journal, whose lines so far are known.
        have hlines (called : List Entry) : start.journal ++ called =
            w.journal ++ (gathered ++ (commitLines stamped update ++ called)) := by
          rw [hstart, hmid]
          simp only [List.append_assoc]
        cases hcommit : m.commit item' update mid with
        | ok done last =>
          rw [hcommit] at hsavers
          rw [bind_of_ok hcommit]
          cases hsavers with
          | all hjournal => exact .committed hgathers (hjournal.trans (hlines _))
        | error e last =>
          rw [hcommit] at hsavers
          rw [bind_of_error hcommit]
          cases hsavers with
          | stopped hsplit hcancelled hjournal =>
            exact .stopped hgathers hsplit hcancelled (hjournal.trans (hlines _))
      · rw [bind_of_error hcommit]
        rw [hmid, List.append_assoc] at hjournal
        exact .refused hgathers hjournal

theorem ConsultEnd.adds {m : Manager σ} {w : World σ}
    {result : EStateM.Result Interrupt (World σ) Update} (h : m.ConsultEnd w result) :
    ∃ lines, (World.after result).journal = w.journal ++ lines ∧
      ∀ e ∈ lines, e.consults = true := by
  cases h with
  | unchanged hgathers _ hjournal => exact ⟨_, hjournal, consults_of_gathers hgathers⟩
  | committed hgathers hjournal =>
    refine ⟨_, hjournal, List.forall_mem_append.mpr ⟨consults_of_gathers hgathers, ?_⟩⟩
    exact List.forall_mem_append.mpr ⟨consults_commitLines, consults_saveLines⟩
  | failed hgathers hjournal => exact ⟨_, hjournal, consults_of_gathers hgathers⟩
  | refused hgathers hjournal =>
    refine ⟨_, hjournal, List.forall_mem_append.mpr ⟨consults_of_gathers hgathers, ?_⟩⟩
    exact List.forall_mem_singleton.mpr rfl
  | stopped hgathers _ _ hjournal =>
    refine ⟨_, hjournal, List.forall_mem_append.mpr ⟨consults_of_gathers hgathers, ?_⟩⟩
    exact List.forall_mem_append.mpr ⟨consults_commitLines, consults_saveLines⟩

/-! ## The result of a refresh -/

/-- The item has been persisted once, and then a cancellation was found at the turn of a
saver: only savers before it have been called. -/
def StoppedAfterCommit (lines : List Entry) : Prop :=
  ∃ (item : Item) (update : Update) (policy : Policy) (before after : List (Saver σ))
    (s : Saver σ), commits lines = [(item, update)] ∧
      m.providers.savers = before ++ s :: after ∧
      saves lines = (before.filter fun s => s.applies item policy update false).map Saver.name

theorem ConsultEnd.of_ok {m : Manager σ} {w w' : World σ} {update : Update}
    (h : m.ConsultEnd w (.ok update w')) :
    ∃ lines, w'.journal = w.journal ++ lines ∧ announcements lines = [] ∧
      (update.isEmpty = false → ∃ committed, commits lines = [(committed, update)]) := by
  cases h with
  | @unchanged _ _ gathered hgathers hempty hjournal =>
    refine ⟨gathered, hjournal, announcements_of_gathers hgathers, fun hsome => ?_⟩
    rw [hempty] at hsome
    cases hsome
  | @committed _ _ gathered item policy hgathers hjournal =>
    refine ⟨_, hjournal, ?_, fun _ => ⟨item, ?_⟩⟩
    · simp [announcements_of_gathers hgathers]
    · simp [commits_of_gathers hgathers]

theorem ConsultEnd.of_error {m : Manager σ} {w w' : World σ} {interrupt : Interrupt}
    (h : m.ConsultEnd w (.error interrupt w')) :
    ∃ lines, w'.journal = w.journal ++ lines ∧ announcements lines = [] ∧
      ∃ e, interrupt = .failed e ∧
        (commits lines = [] ∨
          (e = .cancelled ∧ w'.cancelled = true ∧ m.StoppedAfterCommit lines)) := by
  cases h with
  | @failed _ e gathered hgathers hjournal =>
    exact ⟨gathered, hjournal, announcements_of_gathers hgathers, e, rfl,
      Or.inl (commits_of_gathers hgathers)⟩
  | @refused _ update e gathered item hgathers hjournal =>
    refine ⟨_, hjournal, ?_, e, rfl, Or.inl ?_⟩
    · rw [announcements_append, announcements_of_gathers hgathers]
      rfl
    · rw [commits_append, commits_of_gathers hgathers]
      rfl
  | @stopped _ update gathered item policy before after s hgathers hsplit hcancelled hjournal =>
    refine ⟨_, hjournal, ?_, .cancelled, rfl, Or.inr ⟨rfl, hcancelled, ?_⟩⟩
    · simp [announcements_of_gathers hgathers]
    · refine ⟨item, update, policy, before, after, s, ?_, hsplit, ?_⟩
      · simp [commits_of_gathers hgathers]
      · simp [saves_of_gathers hgathers]

/-- The service responsible for the item consults the providers. -/
def Consults (item : Item) : Prop := ∃ s, m.service? item = some s ∧ s.work = .consult

open Rehearsal

/-- A manager whose item store persists everything, and is cancelled while it does. -/
def interrupted : Manager Stage where
  config := .standard
  providers := { ProviderSet.empty with
    services := [.generic]
    savers := [⟨"Nfo", true, fun _ _ => .ok true, fun _ => answer (.ok ()) false⟩] }
  host := { Stage.host with updateItem := fun _ _ => answer (.ok ()) true }

/-- A refresh that gathers nothing and persists the item all the same. -/
def forcedSave : RefreshOptions := { RefreshOptions.validation with forceSave := true }

/-- A stage with nothing on it. -/
def emptyStage : Stage :=
  ⟨[], .standard, [], [], [], [], none, none, [], fun _ => .of "no network"⟩

end Manager

end MediaRefresh
