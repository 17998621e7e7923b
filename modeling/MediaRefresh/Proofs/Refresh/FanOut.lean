import MediaRefresh.Proofs.Refresh.Validation
import MediaRefresh.Rehearsal.Stage

/-!
# Refresh: the folders of a collection

The physical folders of a collection have their turns one after the other.  In its turn a
folder is refreshed and, if that succeeds, its children are validated.  A turn that fails is
passed over; one that is cancelled or crashes is the last, and none begins after a
cancellation.
-/

set_option autoImplicit false

namespace MediaRefresh

open Numeric RefreshM

variable {σ : Type}

/-! ## Turns -/

/-- The turn of one folder. -/
structure FolderTurn (σ : Type) where
  folder : Item
  /-- the world in which it begins -/
  begins : World σ

namespace FolderTurn

variable (t : FolderTurn σ) (m : Manager σ) (options : RefreshOptions)

/-- What the folder's own refresh comes to. -/
def own : EStateM.Result Interrupt (World σ) Update :=
  m.refreshSingle t.folder options (startedOn t.folder t.begins)

/-- What the turn comes to. -/
def outcome : EStateM.Result Interrupt (World σ) Unit :=
  m.refreshPhysicalFolder options t.folder t.begins

/-- The world in which the turn ends. -/
def ends : World σ := World.after (t.outcome m options)

/-- The lines that the turn adds to the journal. -/
def lines : List Entry := (t.ends m options).journal.drop t.begins.journal.length

/-- Whether no other turn comes after this one: it was cancelled, or it crashed. -/
def stops : Bool :=
  match t.outcome m options with
  | .error (.failed .cancelled) _ => true
  | .error .crashed _ => true
  | _ => false

/-- What a turn that does not crash adds: between its start and its completion the lines of the
folder's own refresh and, if that succeeded, right behind them the validation of all that is
below the folder. -/
def Adds (lines : List Entry) : Prop :=
  ∃ own reports,
    (World.after (t.own m options)).journal = (startedOn t.folder t.begins).journal ++ own ∧
    told own = [] ∧ validations own = [] ∧
    lines = .announced (.started t.folder.id t.folder.name) ::
      ((own ++ if World.Returned (t.own m options) then
          validationLines t.folder options true reports else []) ++
        [.announced (.completed t.folder.id)])

end FolderTurn

/-- The turns that folders have from a world. -/
def Manager.turnsOf (m : Manager σ) (options : RefreshOptions) :
    List Item → World σ → List (FolderTurn σ)
  | [], _ => []
  | folder :: rest, w =>
    let t : FolderTurn σ := ⟨folder, w⟩
    if w.cancelled then []
    else if t.stops m options then [t]
    else t :: m.turnsOf options rest (t.ends m options)

/-- How folders have their turns: all of them, or until a cancellation is found before a turn,
or until a turn stops the others. -/
inductive FanOut (m : Manager σ) (options : RefreshOptions) : List Item → World σ →
    List (FolderTurn σ) → EStateM.Result Interrupt (World σ) Unit → Prop where
  | done (w : World σ) : FanOut m options [] w [] (.ok () w)
  | halted {folder : Item} {rest : List Item} {w : World σ} (cancelled : w.cancelled = true) :
      FanOut m options (folder :: rest) w [] (.error (.failed .cancelled) w)
  | stopped {t : FolderTurn σ} {rest : List Item} (active : t.begins.cancelled = false)
      (stops : t.stops m options = true) :
      FanOut m options (t.folder :: rest) t.begins [t] (t.outcome m options)
  | passed {t : FolderTurn σ} {rest : List Item} {turns : List (FolderTurn σ)}
      {result : EStateM.Result Interrupt (World σ) Unit} (active : t.begins.cancelled = false)
      (passes : t.stops m options = false)
      (later : FanOut m options rest (t.ends m options) turns result) :
      FanOut m options (t.folder :: rest) t.begins (t :: turns) result

namespace Manager

variable (m : Manager σ) (options : RefreshOptions)

/-- The refresh of a folder that stops the others is the end of all. -/
theorem refreshFolders_of_stops {t : FolderTurn σ} (rest : List Item)
    (hactive : t.begins.cancelled = false) (hstops : t.stops m options = true) :
    m.refreshFolders options (t.folder :: rest) t.begins = t.outcome m options := by
  unfold FolderTurn.stops FolderTurn.outcome at *
  unfold refreshFolders
  rw [bind_of_ok (checkCancelled_of_active hactive)]
  have hattempt := attempt_apply (m.refreshPhysicalFolder options t.folder) t.begins
  split at hstops
  · rename_i w hres
    rw [hres] at hattempt
    rw [bind_of_ok hattempt, hres]
    rfl
  · rename_i w hres
    rw [hres] at hattempt
    rw [bind_of_error hattempt, hres]
  · cases hstops

theorem refreshFolders_of_passes {t : FolderTurn σ} (rest : List Item)
    (hactive : t.begins.cancelled = false) (hpasses : t.stops m options = false) :
    m.refreshFolders options (t.folder :: rest) t.begins =
      m.refreshFolders options rest (t.ends m options) := by
  unfold FolderTurn.stops FolderTurn.ends FolderTurn.outcome at *
  conv_lhs => unfold refreshFolders
  rw [bind_of_ok (checkCancelled_of_active hactive)]
  have hattempt := attempt_apply (m.refreshPhysicalFolder options t.folder) t.begins
  cases hres : m.refreshPhysicalFolder options t.folder t.begins with
  | ok done mid =>
    rw [hres] at hattempt
    rw [bind_of_ok hattempt]
    rfl
  | error e mid =>
    rw [hres] at hattempt hpasses
    cases e with
    | crashed => cases hpasses
    | failed e =>
      rw [bind_of_ok hattempt]
      cases e with
      | cancelled => cases hpasses
      | _ => rfl

theorem refreshFolders_fanOut (folders : List Item) (w : World σ) :
    FanOut m options folders w (m.turnsOf options folders w)
      (m.refreshFolders options folders w) := by
  induction folders generalizing w with
  | nil => exact .done w
  | cons folder rest ih =>
    unfold turnsOf
    cases hcancelled : w.cancelled with
    | true =>
      have hhalted : m.refreshFolders options (folder :: rest) w = .error (.failed .cancelled) w :=
        bind_of_error (checkCancelled_of_cancelled hcancelled)
      rw [hhalted]
      exact .halted hcancelled
    | false =>
      have hactive : (⟨folder, w⟩ : FolderTurn σ).begins.cancelled = false := hcancelled
      dsimp only
      rw [if_neg Bool.false_ne_true]
      cases hstops : (⟨folder, w⟩ : FolderTurn σ).stops m options with
      | true =>
        have hlast := m.refreshFolders_of_stops options rest hactive hstops
        dsimp only at hlast
        rw [if_pos rfl, hlast]
        exact .stopped hactive hstops
      | false =>
        have hnext := m.refreshFolders_of_passes options rest hactive hstops
        dsimp only at hnext
        rw [if_neg Bool.false_ne_true, hnext]
        exact .passed hactive hstops (ih _)

end Manager

/-! ## What all turns have in common -/

theorem FolderTurn.not_crashed_of_passes {t : FolderTurn σ} {m : Manager σ}
    {options : RefreshOptions} (h : t.stops m options = false) :
    ¬ World.Crashed (t.outcome m options) := by
  unfold FolderTurn.stops at h
  intro hcrashed
  cases hres : t.outcome m options with
  | ok a last =>
    rw [hres] at hcrashed
    exact hcrashed
  | error e last =>
    rw [hres] at h hcrashed
    cases e with
    | failed e => exact hcrashed
    | crashed => cases h

namespace FanOut

variable {m : Manager σ} {options : RefreshOptions} {folders : List Item} {w : World σ}
  {turns : List (FolderTurn σ)} {result : EStateM.Result Interrupt (World σ) Unit}

theorem folders_inOrder (h : FanOut m options folders w turns result) :
    turns.map FolderTurn.folder <+: folders := by
  induction h with
  | done w => exact List.nil_prefix
  | halted _ => exact List.nil_prefix
  | stopped _ _ => exact ⟨_, rfl⟩
  | passed _ _ _ ih => exact (List.prefix_cons_inj _).mpr ih

theorem active (h : FanOut m options folders w turns result) :
    ∀ t ∈ turns, t.begins.cancelled = false := by
  induction h with
  | done w => simp
  | halted _ => simp
  | stopped hactive _ => simpa using hactive
  | passed hactive _ _ ih => exact List.forall_mem_cons.mpr ⟨hactive, ih⟩

/-- Without a turn that stops the others and without a cancellation every folder has its turn,
and all is well. -/
theorem all_of_passes (h : FanOut m options folders w turns result)
    (hpass : ∀ t ∈ turns, t.stops m options = false)
    (hactive : (World.after result).cancelled = false) :
    turns.map FolderTurn.folder = folders ∧ result = .ok () (World.after result) := by
  induction h with
  | done w => exact ⟨rfl, rfl⟩
  | halted hcancelled =>
    rw [World.after, hcancelled] at hactive
    cases hactive
  | stopped _ hstops =>
    rw [hpass _ List.mem_cons_self] at hstops
    cases hstops
  | passed _ _ _ ih =>
    obtain ⟨hall, hresult⟩ := ih (fun t ht => hpass t (List.mem_cons_of_mem _ ht)) hactive
    exact ⟨congrArg (List.cons _) hall, hresult⟩

/-- A cancellation is found before the next turn. -/
theorem halted_of_cancelled (h : FanOut m options folders w turns result)
    (hcancelled : w.cancelled = true) :
    turns = [] ∧ (folders ≠ [] → result = .error (.failed .cancelled) w) := by
  cases h with
  | done w => exact ⟨rfl, fun hsome => absurd rfl hsome⟩
  | halted _ => exact ⟨rfl, fun _ => rfl⟩
  | stopped hactive _ =>
    rw [hcancelled] at hactive
    cases hactive
  | passed hactive _ _ =>
    rw [hcancelled] at hactive
    cases hactive

/-- A turn within which the cancellation fires is the last. -/
theorem last_of_fires (h : FanOut m options folders w turns result) {k : Nat} {t : FolderTurn σ}
    (hturn : turns[k]? = some t) (hfires : (t.ends m options).cancelled = true)
    (hends : ¬ World.Crashed (t.outcome m options)) :
    turns.length = k + 1 ∧
      (k + 1 < folders.length → result = .error (.failed .cancelled) (World.after result)) := by
  induction h generalizing k with
  | done w => cases hturn
  | halted _ => cases hturn
  | @stopped u rest hactive hstops =>
    cases k with
    | zero =>
      obtain rfl := Option.some.inj hturn
      refine ⟨rfl, fun _ => ?_⟩
      unfold FolderTurn.stops at hstops
      split at hstops
      · rename_i hres
        rw [hres]
        rfl
      · rename_i hres
        rw [hres] at hends
        exact absurd trivial hends
      · cases hstops
    | succ k => cases hturn
  | @passed u rest turns result hactive hpasses hlater ih =>
    cases k with
    | zero =>
      obtain rfl := Option.some.inj hturn
      obtain ⟨rfl, hrest⟩ := hlater.halted_of_cancelled hfires
      refine ⟨rfl, fun hmore => ?_⟩
      have hsome : rest ≠ [] := by
        rintro rfl
        simp at hmore
      rw [hrest hsome]
      rfl
    | succ k =>
      obtain ⟨hlength, hresult⟩ := ih hturn
      refine ⟨congrArg Nat.succ hlength, fun hmore => hresult ?_⟩
      rw [List.length_cons] at hmore
      exact Nat.lt_of_succ_lt_succ hmore

end FanOut

/-! ## The lines of a turn -/

namespace FolderTurn

variable (t : FolderTurn σ) (m : Manager σ) (options : RefreshOptions)

theorem adds (hends : ¬ World.Crashed (t.outcome m options)) :
    (t.ends m options).journal = t.begins.journal ++ t.lines m options ∧
      t.Adds m options (t.lines m options) := by
  obtain ⟨own, reports, hown, htold, hnone, hwithin, -⟩ :=
    m.refreshThenValidate_reported t.folder options true
      (World.isRefreshing_startedOn t.folder t.begins)
  have hlast : t.ends m options = completedOn t.folder (World.after ((do
      let _ ← m.refreshSingle t.folder options
      m.validate t.folder options true) (startedOn t.folder t.begins))) :=
    after_during_of_ends fun hcrashed => hends (crashed_during.mpr hcrashed)
  have hjournal : (t.ends m options).journal = t.begins.journal ++
      .announced (.started t.folder.id t.folder.name) ::
        ((own ++ if World.Returned (t.own m options) then
            validationLines t.folder options true reports else []) ++
          [.announced (.completed t.folder.id)]) := by
    rw [hlast, completedOn, hwithin, startedOn, List.append_assoc, List.append_assoc]
    rfl
  have hlines : t.lines m options = .announced (.started t.folder.id t.folder.name) ::
        ((own ++ if World.Returned (t.own m options) then
            validationLines t.folder options true reports else []) ++
          [.announced (.completed t.folder.id)]) := by
    rw [lines, hjournal, List.drop_left]
  exact ⟨hlines ▸ hjournal, own, reports, hown, htold, hnone, hlines⟩

variable {t m options}

theorem Adds.validations_eq {added : List Entry} (h : t.Adds m options added) :
    validations added =
      if World.Returned (t.own m options) then [(t.folder, options, true)] else [] := by
  obtain ⟨own, reports, -, -, hnone, rfl⟩ := h
  have hstart (rest : List Entry) :
      validations (.announced (.started t.folder.id t.folder.name) :: rest) = validations rest :=
    rfl
  have hlast : validations [.announced (.completed t.folder.id)] = [] := rfl
  rw [hstart, validations_append, validations_append, hnone, hlast, List.append_nil,
    List.nil_append]
  split
  · exact validations_validationLines options true reports
  · rfl

end FolderTurn

namespace FanOut

variable {m : Manager σ} {options : RefreshOptions} {folders : List Item} {w : World σ}
  {turns : List (FolderTurn σ)} {result : EStateM.Result Interrupt (World σ) Unit}

theorem not_crashed (h : FanOut m options folders w turns result)
    (hends : ∀ t ∈ turns, ¬ World.Crashed (t.outcome m options)) : ¬ World.Crashed result := by
  induction h with
  | done w => exact id
  | halted _ => exact id
  | stopped _ _ => exact hends _ List.mem_cons_self
  | passed _ _ _ ih => exact ih fun t ht => hends t (List.mem_cons_of_mem _ ht)

theorem journal_eq (h : FanOut m options folders w turns result)
    (hends : ∀ t ∈ turns, ¬ World.Crashed (t.outcome m options)) :
    (World.after result).journal = w.journal ++ turns.flatMap (·.lines m options) := by
  induction h with
  | done w => exact (List.append_nil _).symm
  | halted _ => exact (List.append_nil _).symm
  | @stopped t _ _ _ =>
    rw [List.flatMap_cons, List.flatMap_nil, List.append_nil]
    exact (t.adds m options (hends t List.mem_cons_self)).1
  | @passed t _ _ _ _ _ _ ih =>
    rw [ih fun u hu => hends u (List.mem_cons_of_mem _ hu),
      (t.adds m options (hends t List.mem_cons_self)).1, List.flatMap_cons, List.append_assoc]

end FanOut

theorem validations_flatMap {m : Manager σ} {options : RefreshOptions}
    {turns : List (FolderTurn σ)}
    (h : ∀ t ∈ turns, t.Adds m options (t.lines m options)) :
    validations (turns.flatMap (·.lines m options)) =
      (turns.filter fun t => World.Returned (t.own m options)).map fun t =>
        (t.folder, options, true) := by
  induction turns with
  | nil => rfl
  | cons t rest ih =>
    obtain ⟨hhere, hrest⟩ := List.forall_mem_cons.mp h
    rw [List.flatMap_cons, validations_append, hhere.validations_eq, ih hrest]
    cases hreturned : World.Returned (t.own m options) with
    | true => simp [hreturned]
    | false => simp [hreturned]

namespace Manager

/-- What the refresh of an item does between its start and its completion. -/
def refreshWithin (m : Manager σ) (item : Item) (options : RefreshOptions) : RefreshM σ Unit := do
  let _ ← m.refreshSingle item options
  if item.kind = .collectionFolder then m.refreshCollection item options
  else if item.kind.isFolder then m.validate item options false
  else pure ()

theorem refreshItem_eq (m : Manager σ) (item : Item) (options : RefreshOptions) :
    m.refreshItem item options = during item (m.refreshWithin item options) := rfl

theorem refreshWithin_of_collection (m : Manager σ) {item : Item} {options : RefreshOptions}
    {w own : World σ} {update : Update} (hkind : item.kind = .collectionFolder)
    (hown : m.refreshSingle item options w = .ok update own) :
    m.refreshWithin item options w = m.refreshFolders options
      (m.host.physicalFolders own.state item) (own.noting (.called (.listFolders item))) := by
  unfold refreshWithin
  rw [bind_of_ok hown, if_pos hkind]
  rfl

theorem validations_of_own (m : Manager σ) {item : Item} {options : RefreshOptions}
    {w own : World σ} {update : Update}
    (hown : m.refreshSingle item options (startedOn item w) = .ok update own) :
    validations own.journal = validations w.journal := by
  obtain ⟨lines, hlines, -, hnone⟩ := m.refreshSingle_adds item options (startedOn item w)
  rw [hown] at hlines
  have hjournal : own.journal =
      w.journal ++ ([.announced (.started item.id item.name)] ++ lines) := by
    rw [← List.append_assoc]
    exact hlines
  rw [hjournal, validations_append, validations_append, hnone]
  exact List.append_nil _

/-- A collection folder whose own refresh succeeds gives its physical folders their turns in
the order in which they are listed, each adding its own refresh and, if that succeeded, the
validation of all that is below it, and nothing else is validated.  Unless a turn crashes or
ends with a cancellation, or the cancellation fires, every folder has its turn and all is well.
The turn in which the cancellation fires is the last, and if folders are left the refresh ends
with the cancellation. -/
theorem collection_fans_out (m : Manager σ) (item : Item) (options : RefreshOptions)
    {w own : World σ} {update : Update} (hkind : item.kind = .collectionFolder)
    (hown : m.refreshSingle item options (startedOn item w) = .ok update own) :
    let folders := m.host.physicalFolders own.state item
    let turns := m.turnsOf options folders (own.noting (.called (.listFolders item)))
    let result := m.refreshItem item options w
    (∀ t ∈ turns, ¬ World.Crashed (t.outcome m options)) →
      turns.map FolderTurn.folder <+: folders ∧
      (∀ t ∈ turns, t.begins.cancelled = false ∧ t.Adds m options (t.lines m options)) ∧
      (World.after result).journal = own.journal ++ (.called (.listFolders item) ::
        (turns.flatMap (·.lines m options) ++ [.announced (.completed item.id)])) ∧
      validations (World.after result).journal = validations w.journal ++
        (turns.filter fun t => World.Returned (t.own m options)).map (fun t =>
          (t.folder, options, true)) ∧
      ((∀ t ∈ turns, t.stops m options = false) → (World.after result).cancelled = false →
        turns.map FolderTurn.folder = folders ∧ result = .ok () (World.after result)) ∧
      ∀ k t, turns[k]? = some t → (t.ends m options).cancelled = true →
        turns.length = k + 1 ∧
          (k + 1 < folders.length → result = .error (.failed .cancelled) (World.after result)) := by
  intro folders turns result hends
  have hround := m.refreshFolders_fanOut options folders (own.noting (.called (.listFolders item)))
  have hwithin := m.refreshWithin_of_collection hkind hown
  -- the collection completes, since none of its turns crashes
  have hlast : World.after result = completedOn item (World.after (m.refreshFolders options
      folders (own.noting (.called (.listFolders item))))) := by
    have hnot : ¬ World.Crashed (m.refreshWithin item options (startedOn item w)) := by
      rw [hwithin]
      exact hround.not_crashed hends
    exact (after_during_of_ends hnot).trans (by rw [hwithin])
  have hadds : ∀ t ∈ turns, t.Adds m options (t.lines m options) :=
    fun t ht => (t.adds m options (hends t ht)).2
  have hjournal : (World.after result).journal = own.journal ++ (.called (.listFolders item) ::
      (turns.flatMap (·.lines m options) ++ [.announced (.completed item.id)])) := by
    rw [hlast, completedOn, hround.journal_eq hends, World.noting, List.append_assoc,
      List.append_assoc]
    rfl
  refine ⟨hround.folders_inOrder, fun t ht => ⟨hround.active t ht, hadds t ht⟩, hjournal,
    ?_, ?_, ?_⟩
  · -- of the lines only those of the turns ask for validations
    have hshape (rest : List Entry) : validations (.called (.listFolders item) ::
        (rest ++ [.announced (.completed item.id)])) = validations rest := by
      rw [← List.cons_append, validations_append]
      exact List.append_nil _
    rw [hjournal, validations_append, m.validations_of_own hown, hshape, validations_flatMap hadds]
  · intro hpass hactive
    rw [hlast] at hactive
    obtain ⟨hall, hok⟩ := hround.all_of_passes hpass hactive
    refine ⟨hall, ?_⟩
    rw [hlast]
    exact during_of_ok (hwithin.trans hok)
  · intro k t hturn hfires
    have hmem : t ∈ turns := List.mem_of_getElem? hturn
    obtain ⟨hlength, hcancelled⟩ := hround.last_of_fires hturn hfires (hends t hmem)
    refine ⟨hlength, fun hmore => ?_⟩
    rw [hlast]
    exact during_of_failed (hwithin.trans (hcancelled hmore))

end Manager

/-! ## A damaged folder beside a sound one -/

namespace Rehearsal

/-- A collection folder. -/
def shelf : Item := .bare .zero .collectionFolder "Films"

/-- A physical folder. -/
def attic : Item := .bare ⟨Fin.last 15 :: ItemId.zero.digits.tail, rfl⟩ .folder "Attic"

/-- Another one. -/
def cellar : Item := .bare ⟨ItemId.zero.digits.tail ++ [Fin.last 15], rfl⟩ .folder "Cellar"

/-- A manager for a shelf of two folders.  What the refresh of the first comes to is given, that
of everything else succeeds, and validations report progress once. -/
def shelves (first : ServiceOutcome) : Manager Stage where
  config := .standard
  providers := { ProviderSet.empty with
    services := [service "Sorter" 0 [] none .empty [(attic.id, first, false)]] }
  host := { Stage.host with
    physicalFolders := fun _ _ => [attic, cellar]
    validateChildren := fun _ _ _ w => ⟨[.ofInt 50], .done, w.state, false⟩ }

/-- What is wrong with the first folder. -/
def damaged : ServiceOutcome := .failed (.internal "damaged")

end Rehearsal

open Rehearsal in
theorem Manager.sound_folder_refreshed :
    ∃ w', (shelves damaged).refreshItem shelf .standard (.fresh emptyStage) = .ok () w' ∧
      validations w'.journal = [(cellar, .standard, true)] := by
  have hround := collection_fans_out (shelves damaged) shelf .standard (w := .fresh emptyStage)
    rfl rfl
  obtain ⟨-, -, -, hvalidated, hall, -⟩ := hround (by
    -- the turns of the attic and of the cellar
    rintro t (_ | ⟨_, _ | ⟨_, ⟨⟩⟩⟩)
    · exact id
    · exact id)
  refine ⟨_, ?_, hvalidated⟩
  exact (hall (by decide) rfl).2

end MediaRefresh
