import MediaRefresh.Proofs.Refresh.Journal

/-!
# Refresh: what the refresh of one item is made of

What the responsible service does is a sequence of questions to the outside, of lines in the
journal and of checks for a cancellation.  A property that these have and sequences keep holds
of the refresh of an item, if it holds of the lookups of its metadata.
-/

set_option autoImplicit false

namespace MediaRefresh

variable {σ : Type}

/-- Whether a line looks nothing up, and announces nothing but a change of an item. -/
def Entry.isPlain : Entry → Bool
  | called (.fetch ..) | called (.search ..) => false
  | announced (.updated ..) => true
  | announced _ => false
  | _ => true

namespace RefreshM

/-- A property of actions that is kept in sequence, and holds of all that leaves the tracker
and the lookups alone. -/
structure Sequences (P : (α : Type) → RefreshM σ α → Prop) : Prop where
  pure {α : Type} (a : α) : P α (pure a)
  stop {α : Type} (e : Interrupt) : P α (throw e)
  read : P (World σ) get
  bind {α β : Type} {x : RefreshM σ α} {f : α → RefreshM σ β} (hx : P α x)
    (hf : ∀ a, P β (f a)) : P β (x >>= f)
  note {e : Entry} (hplain : e.isPlain = true) : P Unit (note e)
  /-- the outside takes the world and gives it back with its tracker and its journal -/
  exchange {α : Type} {g : World σ → World σ} {k : World σ → RefreshM σ α}
    (htracker : ∀ w, (g w).tracker = w.tracker) (hjournal : ∀ w, (g w).journal = w.journal)
    (hk : ∀ w, P α (k w)) : P α (do
      let w ← get
      set (g w)
      k w)

namespace Sequences

variable {P : (α : Type) → RefreshM σ α → Prop} (h : Sequences P) {α β : Type}

include h

theorem ask {c : Call} (hplain : (Entry.called c).isPlain = true) (r : Reaction σ α) :
    P _ (ask c r) :=
  h.bind (h.note hplain) fun _ => h.exchange (fun _ => rfl) (fun _ => rfl) fun _ => h.pure _

theorem checkCancelled : P Unit checkCancelled := by
  unfold RefreshM.checkCancelled
  apply h.bind (h.bind h.read fun w => h.pure _)
  intro cancelled
  split
  · exact h.stop _
  · exact h.pure _

theorem foldlM {f : β → α → RefreshM σ β} (hf : ∀ b a, P β (f b a)) (l : List α) (b : β) :
    P β (l.foldlM f b) := by
  induction l generalizing b with
  | nil => exact h.pure b
  | cons a rest ih => exact h.bind (hf b a) fun b' => ih b'

theorem forM {f : α → RefreshM σ Unit} (hf : ∀ a, P Unit (f a)) (l : List α) :
    P Unit (l.forM f) := by
  induction l with
  | nil => exact h.pure ()
  | cons a rest ih => exact h.bind (hf a) fun _ => ih

/-! ## Images -/

section Images

variable (m : Manager σ) (p : ImageProvider σ) (item : Item) (wanted : List ImageType)

theorem listCandidates : P _ (p.listCandidates item) := by
  unfold ImageProvider.listCandidates
  cases p.candidates with
  | none => exact h.pure _
  | some list => exact h.ask rfl _

theorem generateImage (t : ImageType) : P _ (p.generateImage item t) := by
  unfold ImageProvider.generateImage
  cases p.generate with
  | none => exact h.pure _
  | some make => exact h.ask rfl _

theorem downloadImage (url : String) : P _ (p.downloadImage url) := by
  unfold ImageProvider.downloadImage
  cases p.download with
  | none => exact h.pure _
  | some load => exact h.ask rfl _

theorem supplyFiles : P _ (p.supplyFiles item wanted) := by
  unfold ImageProvider.supplyFiles
  apply h.bind (h.listCandidates p item)
  intro answer
  cases answer with
  | ok images => exact h.pure _
  | error f => exact h.pure _

theorem storeImage (t : ImageType) (mediaType data : String) :
    P _ (m.storeImage item t mediaType data) := h.ask rfl _

theorem supplyGenerated (s : Supply) : P _ (m.supplyGenerated p item wanted s) := by
  induction wanted generalizing s with
  | nil => exact h.pure s
  | cons t rest ih =>
    unfold Manager.supplyGenerated
    apply h.bind (h.generateImage p _ t)
    intro answer
    cases answer with
    | error f => exact h.pure _
    | ok made =>
      cases made with
      | none => exact ih s
      | some response =>
        apply h.bind (h.storeImage m _ t _ _)
        intro stored
        cases stored with
        | error f => exact h.pure _
        | ok image => exact ih _

theorem supplyDownloads (language : String) (candidates : List RemoteImage) (s : Supply) :
    P _ (m.supplyDownloads p language candidates item wanted s) := by
  induction wanted generalizing s with
  | nil => exact h.pure s
  | cons t rest ih =>
    unfold Manager.supplyDownloads
    cases RemoteImage.best? language t candidates with
    | none => exact ih s
    | some best =>
      apply h.bind (h.downloadImage p _)
      intro answer
      cases answer with
      | error f => exact ih s
      | ok response =>
        dsimp only
        cases MediaType.validate best.url response.contentType with
        | error e => exact ih s
        | ok mediaType =>
          apply h.bind (h.storeImage m _ t _ _)
          intro stored
          cases stored with
          | error f => exact h.pure _
          | ok image => exact ih _

theorem supply (language : String) : P _ (m.supply p language item wanted) := by
  unfold Manager.supply
  cases p.source with
  | disk => exact h.supplyFiles p item wanted
  | dynamic => exact h.supplyGenerated m p item wanted .none
  | remote =>
    apply h.bind (h.listCandidates p item)
    intro answer
    cases answer with
    | ok candidates => exact h.supplyDownloads m p item wanted language candidates .none
    | error f => exact h.pure _

theorem consultImages (options : RefreshOptions) (language : String) (g : ImageGathering) :
    P _ (m.consultImages options language g p) := by
  unfold Manager.consultImages
  apply h.bind h.checkCancelled
  intro _
  dsimp only
  split
  · exact h.pure g
  · apply h.bind (h.supply m p _ _ language)
    intro s
    split
    · exact h.bind h.checkCancelled fun _ => h.pure _
    · exact h.pure _

theorem gatherImages (options : RefreshOptions) : P _ (m.gatherImages item options) := by
  unfold Manager.gatherImages
  apply h.bind h.read
  intro w
  refine h.bind ?_ fun g => h.pure _
  exact h.foldlM (fun g p => h.consultImages m p options _ g) _ _

end Images

/-! ## The refresh of one item -/

section Single

variable (m : Manager σ) (item : Item) (update : Update) (options : RefreshOptions)

theorem gather (hmetadata : P _ (m.gatherMetadata item options)) :
    P _ (m.gather item options) := by
  have hwhen {asked : Bool} {step : Item → RefreshM σ (Item × Update)} (i : Item)
      (hstep : P _ (step i)) : P _ (Manager.gatherWhen asked step i) := by
    unfold Manager.gatherWhen
    split
    · exact hstep
    · exact h.pure _
  unfold Manager.gather
  apply h.bind (hwhen item hmetadata)
  intro found
  exact h.bind (hwhen _ (h.gatherImages m _ options)) fun pictured => h.pure _

theorem persist (context : String) : P _ (m.persist context item update) := by
  unfold Manager.persist
  apply h.bind (h.ask rfl _)
  intro answer
  cases answer with
  | ok done => exact h.note rfl
  | error f => exact h.stop _

theorem turn (s : Saver σ) (policy : Policy) : P _ (s.turn item policy update) := by
  unfold Saver.turn
  apply h.bind h.checkCancelled
  intro _
  split
  · exact h.bind (h.ask rfl _) fun _ => h.pure _
  · exact h.pure _

theorem commit : P _ (m.commit item update) := by
  unfold Manager.commit Manager.stamp
  apply h.bind (h.bind h.read fun w => h.pure _)
  intro stamped
  apply h.bind (h.persist m stamped update _)
  intro _
  unfold Manager.saveMetadata
  exact h.bind h.read fun w => h.forM (fun s => h.turn stamped update s _) _

variable (hmetadata : P _ (m.gatherMetadata item options))

include hmetadata

theorem refreshByProviders : P _ (m.refreshByProviders item options) := by
  unfold Manager.refreshByProviders
  apply h.bind (h.gather m item options hmetadata)
  intro found
  dsimp only
  split
  · exact h.pure _
  · exact h.bind (h.commit m _ _) fun _ => h.pure _

theorem serve (s : Service σ) : P _ (m.serve s item options) := by
  unfold Manager.serve
  cases s.work with
  | consult => exact h.refreshByProviders m item options hmetadata
  | own name refresh =>
    apply h.bind (h.note rfl)
    intro _
    refine h.exchange (fun _ => rfl) (fun _ => rfl) fun w => ?_
    cases (refresh item options w.surroundings).outcome with
    | done update => exact h.pure update
    | failed e => exact h.stop _
    | crashed => exact h.stop _

theorem refreshSingle : P _ (m.refreshSingle item options) := by
  unfold Manager.refreshSingle
  apply h.bind h.checkCancelled
  intro _
  cases m.service? item with
  | none => exact h.pure _
  | some s =>
    apply h.bind (h.serve m item options hmetadata s)
    intro update
    split
    · exact h.pure _
    · exact h.bind (h.note rfl) fun _ => h.pure _

end Single

end Sequences

end RefreshM

end MediaRefresh
