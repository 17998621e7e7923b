import MediaRefresh.Proofs.Refresh.Marks

/-!
# Refresh: validations of children

Whether and how the children of a folder are validated can be read off the journal.  The
refresh of one item validates nothing; a folder that is refreshed and then validated has the
validation right behind its own refresh, with the progress announced as the folder's.
-/

set_option autoImplicit false

namespace MediaRefresh

open Numeric RefreshM

variable {σ α : Type}

/-- Whether an action returned a value. -/
def World.Returned : EStateM.Result Interrupt (World σ) α → Bool
  | .ok _ _ => true
  | .error _ _ => false

/-! ## Validations in a journal -/

/-- The folder whose children were validated, with the options, and whether recursively. -/
def Entry.validated? : Entry → Option (Item × RefreshOptions × Bool)
  | called (.validateChildren folder options recursively) => some (folder, options, recursively)
  | _ => none

/-- Which validations were asked for, in order. -/
def validations (lines : List Entry) : List (Item × RefreshOptions × Bool) :=
  lines.filterMap Entry.validated?

/-- The lines of a validation with the progress that it reports. -/
def validationLines (folder : Item) (options : RefreshOptions) (recursively : Bool)
    (reports : List Binary64) : List Entry :=
  .called (.validateChildren folder options recursively) ::
    (progressOf folder reports).map .announced

section Readings

variable {lines more : List Entry} {item folder : Item} {update : Update}

@[simp] theorem validations_append :
    validations (lines ++ more) = validations lines ++ validations more :=
  List.filterMap_append

theorem validations_of_consults (h : ∀ e ∈ lines, e.consults = true) : validations lines = [] := by
  refine List.filterMap_eq_nil_iff.mpr fun e he => ?_
  cases e with
  | called c =>
    cases c with
    | validateChildren folder options recursively => cases h _ he
    | _ => rfl
  | _ => rfl

@[simp] theorem validations_announced (events : List RefreshEvent) :
    validations (events.map .announced) = [] := by
  simp [validations, Entry.validated?]

@[simp] theorem validations_validationLines (options : RefreshOptions) (recursively : Bool)
    (reports : List Binary64) :
    validations (validationLines folder options recursively reports) =
      [(folder, options, recursively)] :=
  congrArg (List.cons _) (validations_announced _)

theorem told_validationLines (options : RefreshOptions) (recursively : Bool)
    (reports : List Binary64) :
    told (validationLines folder options recursively reports) = progressOf folder reports := by
  have hreports : announcements ((progressOf folder reports).map .announced) =
      progressOf folder reports := by
    simp [announcements, Entry.announced?, Function.comp_def]
  have hlines : announcements (validationLines folder options recursively reports) =
      progressOf folder reports := hreports
  rw [told, hlines, List.filter_eq_self]
  intro e he
  obtain ⟨progress, -, rfl⟩ := List.mem_map.mp he
  rfl

end Readings

namespace World

/-- A world with one more line in the journal. -/
def noting (e : Entry) (w : World σ) : World σ := { w with journal := w.journal ++ [e] }

end World

theorem RefreshM.note_apply (e : Entry) (w : World σ) : note e w = .ok () (w.noting e) := rfl

namespace Manager

variable (m : Manager σ)

/-! ## The refresh of one item validates nothing -/

/-- What the call of a service adds to the journal. -/
theorem serve_lines (s : Service σ) (item : Item) (options : RefreshOptions) (w : World σ) :
    ∃ lines, (World.after (m.serve s item options w)).journal = w.journal ++ lines ∧
      match s.work with
      | .consult => ∀ e ∈ lines, e.consults = true
      | .own name _ => lines = [.called (.serve name item options)] := by
  unfold serve
  cases s.work with
  | consult => exact (m.refreshByProviders_end item options w).adds
  | own name refresh =>
    refine ⟨[.called (.serve name item options)], ?_, rfl⟩
    have hget {y : World σ} : (get : RefreshM σ (World σ)) y = .ok y y := rfl
    have hset {y z : World σ} : (set y : RefreshM σ Unit) z = .ok () y := rfl
    dsimp only
    rw [bind_of_ok (note_apply _ w), bind_of_ok hget, bind_of_ok hset]
    cases (refresh item options
      (w.noting (.called (.serve name item options))).surroundings).outcome with
    | done update => rfl
    | failed e => rfl
    | crashed => rfl

theorem serve_adds (s : Service σ) (item : Item) (options : RefreshOptions) (w : World σ) :
    ∃ lines, (World.after (m.serve s item options w)).journal = w.journal ++ lines ∧
      validations lines = [] := by
  obtain ⟨lines, hjournal, hlines⟩ := m.serve_lines s item options w
  refine ⟨lines, hjournal, ?_⟩
  cases hwork : s.work with
  | consult =>
    rw [hwork] at hlines
    exact validations_of_consults hlines
  | own name refresh =>
    rw [hwork] at hlines
    rw [hlines]
    rfl

/-- The refresh of one item adds lines that tell nothing of refreshes and of validations. -/
theorem refreshSingle_adds (item : Item) (options : RefreshOptions) (w : World σ) :
    ∃ own, (World.after (m.refreshSingle item options w)).journal = w.journal ++ own ∧
      told own = [] ∧ validations own = [] := by
  have hadds : ∃ own, (World.after (m.refreshSingle item options w)).journal =
      w.journal ++ own ∧ validations own = [] := by
    unfold refreshSingle
    cases hcancelled : w.cancelled with
    | true =>
      rw [bind_of_error (checkCancelled_of_cancelled hcancelled)]
      exact ⟨[], (List.append_nil _).symm, rfl⟩
    | false =>
      rw [bind_of_ok (checkCancelled_of_active hcancelled)]
      cases m.service? item with
      | none => exact ⟨[], (List.append_nil _).symm, rfl⟩
      | some s =>
        dsimp only
        obtain ⟨lines, hjournal, hnone⟩ := m.serve_adds s item options w
        cases hserve : m.serve s item options w with
        | error e mid =>
          rw [hserve] at hjournal
          rw [bind_of_error hserve]
          exact ⟨lines, hjournal, hnone⟩
        | ok update mid =>
          have hmid : mid.journal = w.journal ++ lines := by rwa [hserve] at hjournal
          rw [bind_of_ok hserve]
          split
          · exact ⟨lines, hmid, hnone⟩
          · refine ⟨lines ++ [.announced (.updated item.id update.toList)], ?_, ?_⟩
            · rw [← List.append_assoc, ← hmid]
              rfl
            · rw [validations_append, hnone]
              rfl
  obtain ⟨own, hjournal, hnone⟩ := hadds
  have htold := (m.refreshSingle_untracked item options).told_eq w
  rw [hjournal, told_append, List.append_right_eq_self] at htold
  exact ⟨own, hjournal, htold, hnone⟩

/-! ## One validation -/

/-- The world in which a validation answers, before its reports are heard. -/
def answeredOn (m : Manager σ) (folder : Item) (options : RefreshOptions) (recursively : Bool)
    (w : World σ) : World σ :=
  let answer := m.host.validateChildren folder options recursively w.surroundings
  { w.noting (.called (.validateChildren folder options recursively)) with
    state := answer.state
    cancelled := w.cancelled || answer.fires }

theorem validateWith_apply (onReport : Binary64 → RefreshM σ Unit) (folder : Item)
    (options : RefreshOptions) (recursively : Bool) (w : World σ) :
    m.validateWith onReport folder options recursively w =
      ((m.host.validateChildren folder options recursively w.surroundings).reports.forM onReport
        >>= fun _ =>
          pure (m.host.validateChildren folder options recursively w.surroundings).outcome)
        (m.answeredOn folder options recursively w) := rfl

/-- A validation within the refresh of its folder. -/
theorem validate_reported {w : World σ} (folder : Item) (options : RefreshOptions)
    (recursively : Bool) (h : w.tracker.isRefreshing folder.id = true) :
    ∃ reports, (World.after (m.validate folder options recursively w)).journal =
        w.journal ++ validationLines folder options recursively reports ∧
      w.Reported folder reports (World.after (m.validate folder options recursively w)) := by
  obtain ⟨last, hreports, hjournal, -, hshown, hothers⟩ :=
    forM_reportLeniently (w := m.answeredOn folder options recursively w)
      (m.host.validateChildren folder options recursively w.surroundings).reports h
  have hwith := (m.validateWith_apply (reportLeniently folder) folder options recursively w).trans
    (bind_of_ok hreports)
  have hlast : World.after (m.validate folder options recursively w) = last := by
    unfold validate
    rw [bind_of_ok hwith]
    cases (m.host.validateChildren folder options recursively w.surroundings).outcome with
    | done => rfl
    | failed f =>
      dsimp only
      cases hcancelled : last.cancelled with
      | true => rw [bind_of_error (checkCancelled_of_cancelled hcancelled)]; rfl
      | false => rw [bind_of_ok (checkCancelled_of_active hcancelled)]; rfl
    | crashed => rfl
  have hlines : last.journal = w.journal ++ validationLines folder options recursively
      (m.host.validateChildren folder options recursively w.surroundings).reports := by
    rw [hjournal, validationLines, List.append_cons]
    rfl
  rw [hlast]
  refine ⟨_, hlines, ?_, hshown, hothers⟩
  rw [hlines, told_append, told_validationLines]

/-- The refresh of a folder of its own and, if that succeeds, the validation of its children. -/
theorem refreshThenValidate_reported {w : World σ} (folder : Item) (options : RefreshOptions)
    (recursively : Bool) (h : w.tracker.isRefreshing folder.id = true) :
    ∃ own reports, (World.after (m.refreshSingle folder options w)).journal = w.journal ++ own ∧
      told own = [] ∧ validations own = [] ∧
      (World.after ((do
          let _ ← m.refreshSingle folder options
          m.validate folder options recursively) w)).journal =
        w.journal ++ (own ++ if World.Returned (m.refreshSingle folder options w) then
          validationLines folder options recursively reports else []) ∧
      w.Reported folder reports (World.after ((do
          let _ ← m.refreshSingle folder options
          m.validate folder options recursively) w)) := by
  obtain ⟨own, hown, htold, hnone⟩ := m.refreshSingle_adds folder options w
  have hfirst := World.Reported.of_untracked (m.refreshSingle_untracked folder options) h
  cases hres : m.refreshSingle folder options w with
  | error e mid =>
    rw [hres] at hown hfirst
    rw [bind_of_error hres]
    exact ⟨own, [], hown, htold, hnone, hown.trans (by simp [World.Returned]), hfirst⟩
  | ok update mid =>
    rw [hres] at hown hfirst
    rw [bind_of_ok hres]
    obtain ⟨reports, hjournal, hreported⟩ :=
      m.validate_reported folder options recursively hfirst.shown
    refine ⟨own, reports, hown, htold, hnone, ?_, hfirst.trans hreported⟩
    have hmid : mid.journal = w.journal ++ own := hown
    rw [World.Returned, if_pos rfl, ← List.append_assoc, ← hmid]
    exact hjournal

end Manager

end MediaRefresh
