import MediaRefresh.Proofs.Session.Dispatch

/-!
# Sessions: which savers are called

A registration keeps the savers that are on, in the order in which they were declared.  After
an update each of them has its turn, and is called if it is due.  What a saver answers makes no
difference to those behind it.  Only a cancellation does: it ends the turns, with an error.
-/

set_option autoImplicit false

namespace MediaRefresh

open RefreshM

variable {σ : Type}

/-! ## Savers that are due -/

namespace Saver

variable {s : Saver σ} {item : Item} {policy : Policy} {update : Update}

/-- A saver is due after an update of an item on disk that it accepts without an error, if the
library names it; where the library names no savers at all, if it is not disabled for the kind,
and the library keeps local metadata or some was downloaded or edited. -/
structure Due (s : Saver σ) (item : Item) (policy : Policy) (update : Update) : Prop where
  onDisk : item.path.isSome = true
  accepted : s.accepts item update = .ok true
  wanted : (∃ names, policy.library.savers = some names ∧
      ∃ name ∈ names, Text.same name s.name = true) ∨
    (policy.library.savers = none ∧
      (∀ name ∈ policy.kind.disabledSavers, Text.same name s.name = false) ∧
      (policy.library.saveLocal = true ∨ update.holds .metadataDownload = true ∨
        update.holds .metadataEdit = true))

theorem applies_iff_due : s.applies item policy update false = true ↔ s.Due item policy update := by
  have haccepted : agreed (s.accepts item update) = true ↔ s.accepts item update = .ok true := by
    cases s.accepts item update with
    | ok b => simp [agreed]
    | error f => simp [agreed]
  unfold applies Item.supportsLocalMetadata
  rw [Bool.and_eq_true, Bool.and_eq_true, Bool.false_or, haccepted]
  cases hsavers : policy.library.savers with
  | some names =>
    have hlisted : Text.listed names s.name = true ↔
        ∃ name ∈ names, Text.same name s.name = true := List.any_eq_true
    dsimp only
    rw [hlisted]
    constructor
    · rintro ⟨⟨hdisk, haccepts⟩, hnamed⟩
      exact ⟨hdisk, haccepts, .inl ⟨names, hsavers, hnamed⟩⟩
    · rintro ⟨hdisk, haccepts, ⟨named, hnamed, hmem⟩ | ⟨hnone, -⟩⟩
      · cases hsavers.symm.trans hnamed
        exact ⟨⟨hdisk, haccepts⟩, hmem⟩
      · cases hsavers.symm.trans hnone
  | none =>
    have hlisted : (!Text.listed policy.kind.disabledSavers s.name) = true ↔
        ∀ name ∈ policy.kind.disabledSavers, Text.same name s.name = false := by
      rw [Bool.not_eq_true', Text.listed, List.any_eq_false]
      simp only [Bool.not_eq_true]
    dsimp only
    rw [Bool.and_eq_true, hlisted, Bool.or_eq_true, update.reaches_metadataDownload]
    constructor
    · rintro ⟨⟨hdisk, haccepts⟩, hwanted⟩
      exact ⟨hdisk, haccepts, .inr ⟨hsavers, hwanted⟩⟩
    · rintro ⟨hdisk, haccepts, ⟨named, hnamed, -⟩ | ⟨-, hwanted⟩⟩
      · cases hsavers.symm.trans hnamed
      · exact ⟨⟨hdisk, haccepts⟩, hwanted⟩

instance : Decidable (s.Due item policy update) := decidable_of_iff _ applies_iff_due

end Saver

/-- The savers of the last registration. -/
def declaredSavers (rs : List (Registration σ)) : List (Saver σ) :=
  (rs.getLast?.map Registration.savers).getD []

theorem Session.savers_registerAll (config : Config) (host : Host σ) (state : σ)
    (rs : List (Registration σ)) :
    ((fresh ⟨config, .empty, host⟩ state).registerAll rs).manager.providers.savers =
      (declaredSavers rs).filter Saver.enabled := by
  rw [manager_registerAll]
  unfold declaredSavers
  cases rs.getLast? with
  | none => rfl
  | some r => rfl

/-! ## Calls of savers -/

/-- Savers called one after the other, each in a world that is not cancelled. -/
inductive Saving (item : Item) : World σ → List (Saver σ) → World σ → Prop where
  | done (w : World σ) : Saving item w [] w
  | next {w w' : World σ} {called : List (Saver σ)} (s : Saver σ) (active : w.cancelled = false)
      (rest : Saving item (s.saved item w) called w') : Saving item w (s :: called) w'

namespace Saving

variable {item : Item} {w w' : World σ} {called : List (Saver σ)}

theorem journal_eq (h : Saving item w called w') :
    w'.journal = w.journal ++ called.map fun s => .called (.save s.name item) := by
  induction h with
  | done w => exact (List.append_nil _).symm
  | next s _ _ ih =>
    rw [ih, List.map_cons, Saver.saved, List.append_assoc]
    rfl

theorem cancelled_eq (h : Saving item w called w')
    (huncut : ∀ s ∈ called, ∀ x, (s.save item x).fires = false) : w'.cancelled = w.cancelled := by
  induction h with
  | done w => rfl
  | @next w w' called s _ _ ih =>
    obtain ⟨hs, hrest⟩ := List.forall_mem_cons.mp huncut
    rw [ih hrest, Saver.saved, hs w.surroundings, Bool.or_false]

end Saving

/-- By induction on the savers.  Those that apply are called until all have had their turn, or
until one finds a cancellation at its turn. -/
theorem saving_forM (savers : List (Saver σ)) (item : Item) (policy : Policy) (update : Update)
    (w : World σ) :
    ∃ called w', Saving item w called w' ∧
      called <+: savers.filter (fun s => s.applies item policy update false) ∧
      ((savers.forM (fun s => s.turn item policy update) w = .ok () w' ∧
          called = savers.filter fun s => s.applies item policy update false) ∨
        (savers.forM (fun s => s.turn item policy update) w = .error (.failed .cancelled) w' ∧
          w'.cancelled = true)) := by
  induction savers generalizing w with
  | nil => exact ⟨[], w, .done w, List.prefix_refl _, .inl ⟨rfl, rfl⟩⟩
  | cons s rest ih =>
    have hturns : (s :: rest).forM (fun s => s.turn item policy update) w =
        (s.turn item policy update >>= fun _ => rest.forM fun s => s.turn item policy update) w :=
      rfl
    rw [hturns]
    cases hcancelled : w.cancelled with
    | true =>
      rw [bind_of_error (s.turn_of_cancelled item policy update hcancelled)]
      exact ⟨[], w, .done w, List.nil_prefix, .inr ⟨rfl, hcancelled⟩⟩
    | false =>
      rw [bind_of_ok (s.turn_of_active item policy update hcancelled)]
      cases happlies : s.applies item policy update false with
      | false =>
        rw [List.filter_cons_of_neg (by simp [happlies])]
        exact ih w
      | true =>
        obtain ⟨called, w', hsaving, hfirst, hend⟩ := ih (s.saved item w)
        rw [List.filter_cons_of_pos (by exact happlies)]
        refine ⟨s :: called, w', .next s hcancelled hsaving,
          (List.prefix_cons_inj s).mpr hfirst, ?_⟩
        obtain ⟨hok, rfl⟩ | hstopped := hend
        · exact .inl ⟨hok, rfl⟩
        · exact .inr hstopped

namespace Manager

/-- After whatever registrations, an update calls the savers of the last one that are on and
due, each once and in the order in which they were declared, whatever those before have
answered.  Without a cancellation it calls all of them.  After a cancellation it calls none
anymore: only the first ones have been called, and if that leaves any out the error says so. -/
theorem due_savers_called (config : Config) (host : Host σ) (state : σ)
    (rs : List (Registration σ)) (item : Item) (update : Update) (w : World σ) :
    let m := ((Session.fresh ⟨config, .empty, host⟩ state).registerAll rs).manager
    let policy : Policy :=
      ⟨host.libraryOptions w.state item, config.metadata.kindOptions item.kind⟩
    let due := (declaredSavers rs).filter fun s => s.enabled && decide (s.Due item policy update)
    ∃ called w', Saving item w called w' ∧ called <+: due ∧
      w'.journal = w.journal ++ called.map (fun s => .called (.save s.name item)) ∧
      ((m.saveMetadata item update w = .ok () w' ∧ called = due) ∨
        (m.saveMetadata item update w = .error (.failed .cancelled) w' ∧
          w'.cancelled = true)) ∧
      (w.cancelled = false → (∀ s ∈ due, ∀ x, (s.save item x).fires = false) →
        m.saveMetadata item update w = .ok () w' ∧ called = due) := by
  intro m policy due
  have hdue : m.providers.savers.filter (fun s => s.applies item policy update false) = due := by
    rw [Session.savers_registerAll, List.filter_filter]
    refine List.filter_congr fun s _ => ?_
    rw [Bool.and_comm, Bool.eq_iff_iff.mpr (Saver.applies_iff_due.trans decide_eq_true_iff.symm)]
  have hpolicy : m.policy w.state item = policy := by
    have hmanager := Session.manager_registerAll (.fresh ⟨config, .empty, host⟩ state) rs
    have hsettings : m.config = config ∧ m.host = host :=
      ⟨congrArg Manager.config hmanager, congrArg Manager.host hmanager⟩
    unfold Manager.policy kindOptions
    rw [hsettings.1, hsettings.2]
  have hrun : m.saveMetadata item update w =
      m.providers.savers.forM (fun s => s.turn item policy update) w := by
    rw [← hpolicy]
    rfl
  obtain ⟨called, w', hsaving, hfirst, hend⟩ :=
    saving_forM m.providers.savers item policy update w
  rw [hdue] at hfirst hend
  rw [← hrun] at hend
  refine ⟨called, w', hsaving, hfirst, hsaving.journal_eq, hend, fun hactive huncut => ?_⟩
  have hstill := hsaving.cancelled_eq fun s hs => huncut s (hfirst.subset hs)
  obtain hok | ⟨-, hcancelled⟩ := hend
  · exact hok
  · rw [hstill, hactive] at hcancelled
    cases hcancelled

/-! ## A saver that fails -/

open Rehearsal

/-- A saver that accepts everything and answers as given. -/
def sidecar (name : String) (enabled : Bool) (outcome : Except Failure Unit) : Saver Stage :=
  ⟨name, enabled, fun _ _ => .ok true, fun _ => answer outcome false⟩

example :
    let m := ((Session.fresh ⟨.standard, .empty, Stage.host⟩ emptyStage).registerAll
      [⟨[], [], [], [sidecar "Old" true (.ok ())], []⟩,
       ⟨[], [], [], [sidecar "Nfo" true (.error ⟨["full"]⟩), sidecar "Off" false (.ok ()),
          sidecar "Xml" true (.ok ())], []⟩]).manager
    saves (World.after (m.saveMetadata film (.only .metadataDownload)
      (.fresh emptyStage))).journal = ["Nfo", "Xml"] := by
  decide

end Manager

end MediaRefresh
