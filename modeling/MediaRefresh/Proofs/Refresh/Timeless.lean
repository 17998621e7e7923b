import Mathlib.Data.List.Find
import MediaRefresh.Proofs.Provider.Selection
import MediaRefresh.Proofs.Refresh.Bracket
import MediaRefresh.Proofs.Refresh.Parallel

/-!
# Refresh: the same at another time

A refresh stamps what it persists with the present moment, and its collaborators may be shown
items that bear such stamps.  `Manager.Timeless` says that this and the passing of time are all
the same to them.  Then a refresh that starts later, or of an item with another stamp, does the
same from beginning to end: the same calls and announcements, up to the stamps.
-/

set_option autoImplicit false

namespace MediaRefresh

open Numeric RefreshM

variable {σ α β γ δ : Type}

/-! ## Up to the stamps -/

/-- The item as if it had last been refreshed at another time. -/
def Item.refreshedAt (item : Item) (t : Option Calendar.Instant) : Item :=
  { item with lastRefreshed := t }

/-- The second item is the first, refreshed at another time. -/
def Item.Akin (i j : Item) : Prop := ∃ t, j = i.refreshedAt t

/-- The call with items that bear no stamp. -/
def Call.unstamped : Call → Call
  | .listImages provider item => .listImages provider item.unstamped
  | .generateImage provider item type => .generateImage provider item.unstamped type
  | .saveImage item type mediaType data => .saveImage item.unstamped type mediaType data
  | .save saver item => .save saver item.unstamped
  | .serve service item options => .serve service item.unstamped options
  | .listFolders item => .listFolders item.unstamped
  | .validateChildren item options recursively =>
    .validateChildren item.unstamped options recursively
  | .updateItem item update => .updateItem item.unstamped update
  | c => c

/-- The line with items that bear no stamp. -/
def Entry.timeless : Entry → Entry
  | .called c => .called c.unstamped
  | .persisted item update => .persisted item.unstamped update
  | .announced e => .announced e

/-- Two worlds that differ in no more than the time: what is outside is alike, and the journals
are the same up to the stamps. -/
structure World.Akin (alike : σ → σ → Prop) (w w' : World σ) : Prop where
  state : alike w.state w'.state
  cancelled : w.cancelled = w'.cancelled
  tracker : w.tracker = w'.tracker
  journal : w.journal.map Entry.timeless = w'.journal.map Entry.timeless

/-- Time that passes makes no difference to worlds that differ in no more. -/
theorem World.Akin.later {host : Host σ} {alike : σ → σ → Prop} {w w' : World σ}
    (h : w.Akin alike w') {milliseconds : Nat}
    (hpass : alike w.state (host.pass milliseconds w'.state)) :
    w.Akin alike (w'.later host milliseconds) := ⟨hpass, h.cancelled, h.tracker, h.journal⟩

/-- In states that are alike both calls say the same, and leave states that are alike. -/
structure Concur (alike : σ → σ → Prop) (said : α → β) (fires : α → Bool) (left : α → σ)
    (r r' : Surroundings σ → α) : Prop where
  said : ∀ {x y}, alike x y → ∀ cancelled, said (r ⟨x, cancelled⟩) = said (r' ⟨y, cancelled⟩)
  fires : ∀ {x y}, alike x y → ∀ cancelled, fires (r ⟨x, cancelled⟩) = fires (r' ⟨y, cancelled⟩)
  state : ∀ {x y}, alike x y → ∀ cancelled,
    alike (left (r ⟨x, cancelled⟩)) (left (r' ⟨y, cancelled⟩))

namespace Concur

variable {alike : σ → σ → Prop} {said : α → β} {fires : α → Bool} {left : α → σ}
  {r r' : Surroundings σ → α} {w w' : World σ}

theorem surroundings (hworlds : w.Akin alike w') : w'.surroundings = ⟨w'.state, w.cancelled⟩ := by
  rw [World.surroundings, hworlds.cancelled]

theorem answers (h : Concur alike said fires left r r') (hworlds : w.Akin alike w') :
    said (r w.surroundings) = said (r' w'.surroundings) := by
  rw [surroundings hworlds]
  exact h.said hworlds.state w.cancelled

/-- The worlds that the calls leave differ in no more than the time. -/
theorem leaves (h : Concur alike said fires left r r') (hworlds : w.Akin alike w') :
    World.Akin alike
      { w with
        state := left (r w.surroundings)
        cancelled := w.cancelled || fires (r w.surroundings) }
      { w' with
        state := left (r' w'.surroundings)
        cancelled := w'.cancelled || fires (r' w'.surroundings) } := by
  rw [surroundings hworlds]
  refine ⟨h.state hworlds.state w.cancelled, ?_, hworlds.tracker, hworlds.journal⟩
  dsimp only
  rw [← hworlds.cancelled, ← h.fires hworlds.state w.cancelled]
  rfl

end Concur

/-- Both calls answer the same and leave states that are alike. -/
abbrev Reaction.Concur (alike : σ → σ → Prop) (r r' : Reaction σ α) : Prop :=
  MediaRefresh.Concur alike Response.outcome Response.fires Response.state r r'

/-- What a validation says. -/
def ValidationResponse.said (a : ValidationResponse σ) : List Binary64 × ValidationOutcome :=
  (a.reports, a.outcome)

/-- The providers and savers do not depend on the time, nor on when an item was refreshed. -/
structure ProviderSet.Timeless (providers : ProviderSet σ) (alike : σ → σ → Prop) : Prop where
  fetch : ∀ p ∈ providers.metadataProviders, ∀ info,
    Reaction.Concur alike (p.fetch info) (p.fetch info)
  supports : ∀ p ∈ providers.imageProviders, ∀ item t,
    p.supports item = p.supports (item.refreshedAt t)
  types : ∀ p ∈ providers.imageProviders, ∀ item t, p.types item = p.types (item.refreshedAt t)
  listImages : ∀ p ∈ providers.imageProviders, ∀ list ∈ p.candidates, ∀ item t,
    Reaction.Concur alike (list item) (list (item.refreshedAt t))
  generateImage : ∀ p ∈ providers.imageProviders, ∀ make ∈ p.generate, ∀ item t type,
    Reaction.Concur alike (make item type) (make (item.refreshedAt t) type)
  downloadImage : ∀ p ∈ providers.imageProviders, ∀ load ∈ p.download, ∀ url,
    Reaction.Concur alike (load url) (load url)
  accepts : ∀ s ∈ providers.savers, ∀ item t update,
    s.accepts item update = s.accepts (item.refreshedAt t) update
  save : ∀ s ∈ providers.savers, ∀ item t,
    Reaction.Concur alike (s.save item) (s.save (item.refreshedAt t))
  canRefresh : ∀ s ∈ providers.services, ∀ item t,
    s.canRefresh item = s.canRefresh (item.refreshedAt t)
  serve : ∀ s ∈ providers.services, ∀ name refresh, s.work = .own name refresh →
    ∀ item t options, Concur alike ServiceResponse.outcome ServiceResponse.fires
      ServiceResponse.state (refresh item options) (refresh (item.refreshedAt t) options)

/-- The host does not depend on the time, nor on when an item was refreshed, and that time
passes makes no difference to it. -/
structure Host.Timeless (host : Host σ) (alike : σ → σ → Prop) : Prop where
  refl : ∀ x, alike x x
  pass : ∀ {x y}, alike x y → ∀ milliseconds, alike x (host.pass milliseconds y)
  libraryOptions : ∀ {x y}, alike x y → ∀ item t,
    host.libraryOptions x item = host.libraryOptions y (item.refreshedAt t)
  physicalFolders : ∀ {x y}, alike x y → ∀ item t,
    List.Forall₂ Item.Akin (host.physicalFolders x item)
      (host.physicalFolders y (item.refreshedAt t))
  validateChildren : ∀ (item : Item) t options recursively,
    Concur alike ValidationResponse.said ValidationResponse.fires ValidationResponse.state
      (host.validateChildren item options recursively)
      (host.validateChildren (item.refreshedAt t) options recursively)
  updateItem : ∀ (item : Item) t update,
    Reaction.Concur alike (host.updateItem item update)
      (host.updateItem (item.refreshedAt t) update)
  saveImage : ∀ item t type mediaType data,
    Reaction.Concur alike (host.saveImage item type mediaType data)
      (host.saveImage (item.refreshedAt t) type mediaType data)

/-- Neither the collaborators of a manager nor its host depends on the time. -/
structure Manager.Timeless (m : Manager σ) (alike : σ → σ → Prop) : Prop where
  providers : m.providers.Timeless alike
  host : m.host.Timeless alike

/-! ## Actions at two times -/

namespace RefreshM

/-- Both actions have returned related values, or stopped in the same way, in worlds that
differ in no more than the time. -/
inductive EndsAkin (alike : σ → σ → Prop) (Q : α → β → Prop) :
    EStateM.Result Interrupt (World σ) α → EStateM.Result Interrupt (World σ) β → Prop where
  | ok {a : α} {b : β} {w w' : World σ} (value : Q a b) (worlds : w.Akin alike w') :
      EndsAkin alike Q (.ok a w) (.ok b w')
  | error {e : Interrupt} {w w' : World σ} (worlds : w.Akin alike w') :
      EndsAkin alike Q (.error e w) (.error e w')

theorem EndsAkin.after {alike : σ → σ → Prop} {Q : α → β → Prop}
    {result : EStateM.Result Interrupt (World σ) α}
    {result' : EStateM.Result Interrupt (World σ) β} (h : EndsAkin alike Q result result') :
    (World.after result).Akin alike (World.after result') := by
  cases h with
  | ok _ hworlds => exact hworlds
  | error hworlds => exact hworlds

/-- The second action does at another time what the first does. -/
structure Same (alike : σ → σ → Prop) (Q : α → β → Prop) (x : RefreshM σ α) (y : RefreshM σ β) :
    Prop where
  ends : ∀ {w w'}, w.Akin alike w' → EndsAkin alike Q (x w) (y w')

namespace Same

variable {alike : σ → σ → Prop} {Q : α → β → Prop} {R : γ → δ → Prop} {x z : RefreshM σ α}
  {y : RefreshM σ β} {f : α → RefreshM σ γ} {g : β → RefreshM σ δ}

protected theorem pure {a : α} {b : β} (h : Q a b) :
    Same alike Q (pure a : RefreshM σ α) (pure b) := ⟨fun hworlds => .ok h hworlds⟩

protected theorem stop (e : Interrupt) :
    Same alike Q (throw e : RefreshM σ α) (throw e : RefreshM σ β) :=
  ⟨fun hworlds => .error hworlds⟩

protected theorem fail (e : RefreshError) :
    Same alike Q (fail e : RefreshM σ α) (fail e : RefreshM σ β) := .stop _

protected theorem get : Same alike (World.Akin alike) (get : RefreshM σ (World σ)) get :=
  ⟨fun hworlds => .ok hworlds hworlds⟩

protected theorem set {w w' : World σ} (h : w.Akin alike w') :
    Same alike Eq (set w : RefreshM σ PUnit) (set w') := ⟨fun _ => .ok rfl h⟩

protected theorem bind (hx : Same alike Q x y) (hf : ∀ a b, Q a b → Same alike R (f a) (g b)) :
    Same alike R (x >>= f) (y >>= g) where
  ends {w w'} hworlds := by
    have hends := hx.ends hworlds
    generalize hres : x w = result at hends
    generalize hres' : y w' = result' at hends
    cases hends with
    | @ok a b mid mid' hvalue hmids =>
      rw [bind_of_ok hres, bind_of_ok hres']
      exact (hf a b hvalue).ends hmids
    | error hmids =>
      rw [bind_of_error hres, bind_of_error hres']
      exact .error hmids

/-- Actions that go on with the same value. -/
theorem bind_eq {y : RefreshM σ α} {g : α → RefreshM σ δ} (hx : Same alike Eq x y)
    (hf : ∀ a, Same alike R (f a) (g a)) : Same alike R (x >>= f) (y >>= g) := by
  refine .bind hx ?_
  rintro a _ rfl
  exact hf a

theorem bind_get {f : World σ → RefreshM σ γ} {g : World σ → RefreshM σ δ}
    (hf : ∀ w w', w.Akin alike w' → Same alike R (f w) (g w')) :
    Same alike R (get >>= f) (get >>= g) := .bind .get hf

protected theorem note {e e' : Entry} (h : e.timeless = e'.timeless) :
    Same alike Eq (note e : RefreshM σ Unit) (note e') where
  ends hworlds :=
    .ok rfl ⟨hworlds.state, hworlds.cancelled, hworlds.tracker, by simp [hworlds.journal, h]⟩

/-- The outside takes the world and gives it back, and both go on with what it is asked. -/
theorem exchange {change change' : World σ → World σ} {f : World σ → RefreshM σ γ}
    {g : World σ → RefreshM σ δ}
    (hchange : ∀ w w', w.Akin alike w' → (change w).Akin alike (change' w'))
    (hf : ∀ w w', w.Akin alike w' → Same alike R (f w) (g w')) :
    Same alike R
      (do
        let w ← get
        set (change w)
        f w)
      (do
        let w ← get
        set (change' w)
        g w) :=
  .bind_get fun w w' hworlds => .bind_eq (.set (hchange w w' hworlds)) fun _ => hf w w' hworlds

/-- A call that both make, of items that may bear other stamps. -/
protected theorem ask {c c' : Call} {r r' : Reaction σ α} (hcall : c.unstamped = c'.unstamped)
    (hr : Reaction.Concur alike r r') : Same alike Eq (ask c r) (ask c' r') := by
  have hline : (Entry.called c).timeless = (Entry.called c').timeless :=
    congrArg Entry.called hcall
  refine .bind_eq (.note hline) fun _ => ?_
  exact exchange (fun w w' => hr.leaves) fun w w' hworlds => .pure (hr.answers hworlds)

protected theorem checkCancelled :
    Same alike Eq (checkCancelled : RefreshM σ Unit) checkCancelled where
  ends {w w'} hworlds := by
    rw [checkCancelled_apply, checkCancelled_apply, hworlds.cancelled]
    split
    · exact .error hworlds
    · exact .ok rfl hworlds

protected theorem attempt (hx : Same alike Eq x z) :
    Same alike Eq (attempt x) (attempt z) where
  ends {w w'} hworlds := by
    have hends := hx.ends hworlds
    rw [attempt_apply, attempt_apply]
    generalize x w = result at hends
    generalize z w' = result' at hends
    cases hends with
    | ok hvalue hmids => exact .ok (congrArg Except.ok hvalue) hmids
    | @error e _ _ hmids =>
      cases e with
      | failed e => exact .ok rfl hmids
      | crashed => exact .error hmids

/-- The tracker does the same in both runs, and what it says is announced. -/
theorem track (change : Tracker → Tracker × RefreshEvent) :
    Same alike Eq
      (do
        let (tracker, event) := change (← get).tracker
        modify fun w => { w with tracker := tracker }
        announce event : RefreshM σ Unit)
      (do
        let (tracker, event) := change (← get).tracker
        modify fun w => { w with tracker := tracker }
        announce event) where
  ends {w w'} hworlds := by
    have hsame : change w'.tracker = change w.tracker := by rw [hworlds.tracker]
    refine .ok rfl ⟨hworlds.state, hworlds.cancelled, ?_, ?_⟩
    · exact congrArg Prod.fst hsame.symm
    · simp [hworlds.journal, hsame]

protected theorem during (item : Item) {x z : RefreshM σ α} (hx : Same alike Eq x z) :
    Same alike Eq (during item x) (during item z) := by
  unfold during
  refine .bind_eq (track (·.start item)) fun _ => .bind_eq (.attempt hx) fun result => ?_
  refine .bind_eq (track (·.complete item)) fun _ => ?_
  cases result with
  | ok a => exact .pure rfl
  | error e => exact .fail e

protected theorem reportLeniently (item : Item) (progress : Binary64) :
    Same alike Eq (reportLeniently item progress : RefreshM σ Unit)
      (reportLeniently item progress) where
  ends {w w'} hworlds := by
    rw [reportLeniently_apply, reportLeniently_apply]
    unfold reportedOn
    rw [← hworlds.tracker]
    cases w.tracker.report item progress with
    | ok told =>
      exact .ok rfl ⟨hworlds.state, hworlds.cancelled, rfl, by simp [hworlds.journal]⟩
    | error e => exact .ok rfl hworlds

/-- By induction on the list. -/
protected theorem foldlM {Q : α → γ → Prop} {f : α → β → RefreshM σ α}
    {g : γ → β → RefreshM σ γ} {l : List β}
    (hsteps : ∀ a c, Q a c → ∀ b ∈ l, Same alike Q (f a b) (g c b)) {a : α} {c : γ}
    (h : Q a c) : Same alike Q (l.foldlM f a) (l.foldlM g c) := by
  induction l generalizing a c with
  | nil => exact .pure h
  | cons b rest ih =>
    obtain hrest := fun a c hac d hd => hsteps a c hac d (List.mem_cons_of_mem b hd)
    rw [List.foldlM_cons, List.foldlM_cons]
    exact .bind (hsteps a c h b List.mem_cons_self) fun a' c' hac => ih hrest hac

protected theorem forM {f g : β → RefreshM σ Unit} {l : List β}
    (hsteps : ∀ b ∈ l, Same alike Eq (f b) (g b)) : Same alike Eq (l.forM f) (l.forM g) := by
  induction l with
  | nil => exact .pure rfl
  | cons b rest ih =>
    obtain ⟨hb, hrest⟩ := List.forall_mem_cons.mp hsteps
    exact .bind_eq hb fun _ => ih hrest

end Same

end RefreshM

/-! ## What does not look at the stamp -/

section Stamps

variable (t : Option Calendar.Instant)

/-- What has been gathered, for the item refreshed at another time. -/
def Gathering.refreshedAt (g : Gathering) : Gathering := { g with item := g.item.refreshedAt t }

theorem Gathering.take_refreshedAt (g : Gathering) (source : MetadataSource)
    (r : MetadataResult) : (g.refreshedAt t).take source r = (g.take source r).refreshedAt t := by
  unfold take
  split
  · rfl
  · rfl

theorem Item.foldl_setImage_refreshedAt (item : Item) (images : List ItemImage) :
    images.foldl setImage (item.refreshedAt t) = (images.foldl setImage item).refreshedAt t := by
  induction images generalizing item with
  | nil => rfl
  | cons image rest ih => exact ih (item.setImage image)

theorem Supply.onto_refreshedAt (s : Supply) (item : Item) :
    s.onto (item.refreshedAt t) = (s.onto item).refreshedAt t :=
  item.foldl_setImage_refreshedAt t s.recorded

/-- The images gathered, for the item refreshed at another time. -/
def ImageGathering.refreshedAt (g : ImageGathering) : ImageGathering :=
  { g with origin := g.origin.refreshedAt t }

theorem ImageGathering.item_refreshedAt (g : ImageGathering) :
    (g.refreshedAt t).item = g.item.refreshedAt t :=
  g.origin.foldl_setImage_refreshedAt t g.recorded

theorem ImageGathering.wants_refreshedAt (g : ImageGathering) (options : RefreshOptions) :
    (g.refreshedAt t).wants options = g.wants options := by
  unfold wants
  rw [g.item_refreshedAt t]
  rfl

end Stamps

namespace Manager

variable {m : Manager σ} {alike : σ → σ → Prop} (h : m.Timeless alike)
  (t : Option Calendar.Instant)

include h

/-! ## Metadata -/

theorem consult_same {p : MetadataProvider σ} (hp : p ∈ m.providers.metadataProviders)
    (g : Gathering) :
    Same alike (fun a b => b = a.refreshedAt t) (p.consult g) (p.consult (g.refreshedAt t)) := by
  unfold MetadataProvider.consult
  refine .bind_eq .checkCancelled fun _ => ?_
  refine .bind_eq (.ask rfl (h.providers.fetch p hp g.info)) fun answer => ?_
  cases answer with
  | ok r => exact .pure (g.take_refreshedAt t p.source r)
  | error f => exact .bind_eq .checkCancelled fun _ => .pure rfl

theorem consultSource_same {providers : List (MetadataProvider σ)}
    (hproviders : providers ⊆ m.providers.metadataProviders) (options : RefreshOptions)
    (source : MetadataSource) (g : Gathering) :
    Same alike (fun a b => b = a.refreshedAt t) (g.consultSource providers options source)
      ((g.refreshedAt t).consultSource providers options source) := by
  have hconsults : (g.refreshedAt t).consults options source = g.consults options source := rfl
  unfold Gathering.consultSource
  rw [hconsults]
  split
  · refine .foldlM ?_ rfl
    rintro g _ rfl p hp
    exact consult_same h t (hproviders ((List.mem_filter.mp hp).1)) g
  · exact .pure rfl

theorem gatherMetadata_same (item : Item) (options : RefreshOptions) :
    Same alike (fun a b => b = (a.1.refreshedAt t, a.2)) (m.gatherMetadata item options)
      (m.gatherMetadata (item.refreshedAt t) options) := by
  unfold gatherMetadata
  refine .bind_get fun w w' hworlds => ?_
  rw [← h.host.libraryOptions hworlds.state item t]
  have hsources : Same alike (fun a b => b = a.refreshedAt t)
      (MetadataSource.all.foldlM (Gathering.consultSource
        (m.metadataProviders item (m.host.libraryOptions w.state item) false false) options)
        (m.gathering item options))
      (MetadataSource.all.foldlM (Gathering.consultSource
        (m.metadataProviders (item.refreshedAt t) (m.host.libraryOptions w.state item) false
          false) options) (m.gathering (item.refreshedAt t) options)) := by
    refine .foldlM ?_ rfl
    rintro g _ rfl source -
    exact consultSource_same h t (fun p hp => (MetadataProvider.mem_select.mp hp).1) options
      source g
  refine .bind hsources ?_
  rintro g _ rfl
  exact .pure rfl

/-! ## Images -/

theorem listCandidates_same {p : ImageProvider σ} (hp : p ∈ m.providers.imageProviders)
    (item : Item) :
    Same alike Eq (p.listCandidates item) (p.listCandidates (item.refreshedAt t)) := by
  unfold ImageProvider.listCandidates
  cases hlist : p.candidates with
  | none => exact .pure rfl
  | some list => exact .ask rfl (h.providers.listImages p hp list hlist item t)

theorem generateImage_same {p : ImageProvider σ} (hp : p ∈ m.providers.imageProviders)
    (item : Item) (type : ImageType) :
    Same alike Eq (p.generateImage item type) (p.generateImage (item.refreshedAt t) type) := by
  unfold ImageProvider.generateImage
  cases hmake : p.generate with
  | none => exact .pure rfl
  | some make => exact .ask rfl (h.providers.generateImage p hp make hmake item t type)

theorem downloadImage_same {p : ImageProvider σ} (hp : p ∈ m.providers.imageProviders)
    (url : String) : Same alike Eq (p.downloadImage url) (p.downloadImage url) := by
  unfold ImageProvider.downloadImage
  cases hload : p.download with
  | none => exact .pure rfl
  | some load => exact .ask rfl (h.providers.downloadImage p hp load hload url)

theorem storeImage_same (item : Item) (type : ImageType) (mediaType data : String) :
    Same alike Eq (m.storeImage item type mediaType data)
      (m.storeImage (item.refreshedAt t) type mediaType data) :=
  .ask rfl (h.host.saveImage item t type mediaType data)

theorem supplyFiles_same {p : ImageProvider σ} (hp : p ∈ m.providers.imageProviders)
    (item : Item) (wanted : List ImageType) :
    Same alike Eq (p.supplyFiles item wanted) (p.supplyFiles (item.refreshedAt t) wanted) := by
  unfold ImageProvider.supplyFiles
  refine .bind_eq (listCandidates_same h t hp item) fun answer => ?_
  cases answer with
  | ok images => exact .pure rfl
  | error f => exact .pure rfl

theorem supplyGenerated_same {p : ImageProvider σ} (hp : p ∈ m.providers.imageProviders)
    (item : Item) (wanted : List ImageType) (s : Supply) :
    Same alike Eq (m.supplyGenerated p item wanted s)
      (m.supplyGenerated p (item.refreshedAt t) wanted s) := by
  induction wanted generalizing s with
  | nil => exact .pure rfl
  | cons type rest ih =>
    unfold supplyGenerated
    rw [s.onto_refreshedAt t item]
    refine .bind_eq (generateImage_same h t hp _ type) fun answer => ?_
    cases answer with
    | error f => exact .pure rfl
    | ok made =>
      cases made with
      | none => exact ih s
      | some response =>
        refine .bind_eq (storeImage_same h t _ type _ _) fun stored => ?_
        cases stored with
        | error f => exact .pure rfl
        | ok image => exact ih _

theorem supplyDownloads_same {p : ImageProvider σ} (hp : p ∈ m.providers.imageProviders)
    (language : String) (candidates : List RemoteImage) (item : Item) (wanted : List ImageType)
    (s : Supply) :
    Same alike Eq (m.supplyDownloads p language candidates item wanted s)
      (m.supplyDownloads p language candidates (item.refreshedAt t) wanted s) := by
  induction wanted generalizing s with
  | nil => exact .pure rfl
  | cons type rest ih =>
    unfold supplyDownloads
    cases RemoteImage.best? language type candidates with
    | none => exact ih s
    | some best =>
      refine .bind_eq (downloadImage_same h hp _) fun answer => ?_
      cases answer with
      | error f => exact ih s
      | ok response =>
        dsimp only
        cases MediaType.validate best.url response.contentType with
        | error e => exact ih s
        | ok mediaType =>
          dsimp only
          rw [s.onto_refreshedAt t item]
          refine .bind_eq (storeImage_same h t _ type _ _) fun stored => ?_
          cases stored with
          | error f => exact .pure rfl
          | ok image => exact ih _

theorem supply_same {p : ImageProvider σ} (hp : p ∈ m.providers.imageProviders)
    (language : String) (item : Item) (wanted : List ImageType) :
    Same alike Eq (m.supply p language item wanted)
      (m.supply p language (item.refreshedAt t) wanted) := by
  unfold supply
  cases p.source with
  | disk => exact supplyFiles_same h t hp item wanted
  | dynamic => exact supplyGenerated_same h t hp item wanted _
  | remote =>
    refine .bind_eq (listCandidates_same h t hp item) fun answer => ?_
    cases answer with
    | ok candidates => exact supplyDownloads_same h t hp language candidates item wanted _
    | error f => exact .pure rfl

theorem consultImages_same {p : ImageProvider σ} (hp : p ∈ m.providers.imageProviders)
    (options : RefreshOptions) (language : String) (g : ImageGathering) :
    Same alike (fun a b => b = a.refreshedAt t) (m.consultImages options language g p)
      (m.consultImages options language (g.refreshedAt t) p) := by
  unfold consultImages
  rw [g.wants_refreshedAt t options, g.item_refreshedAt t, ← h.providers.types p hp g.item t]
  refine .bind_eq .checkCancelled fun _ => ?_
  dsimp only
  split
  · exact .pure rfl
  · refine .bind_eq (supply_same h t hp language g.item _) fun s => ?_
    split
    · exact .bind_eq .checkCancelled fun _ => .pure rfl
    · exact .pure rfl

theorem policy_same {x y : σ} (hstates : alike x y) (item : Item) :
    m.policy y (item.refreshedAt t) = m.policy x item := by
  unfold policy
  rw [← h.host.libraryOptions hstates item t]
  rfl

theorem imageProviders_same {x y : σ} (hstates : alike x y) (item : Item) (mode : RefreshMode)
    (includeDisabled : Bool) :
    m.imageProviders y (item.refreshedAt t) mode includeDisabled =
      m.imageProviders x item mode includeDisabled := by
  have happlies : ∀ p ∈ m.providers.imageProviders,
      p.applies (item.refreshedAt t) (m.policy x item) mode includeDisabled =
        p.applies item (m.policy x item) mode includeDisabled := by
    intro p hp
    unfold ImageProvider.applies
    rw [← h.providers.supports p hp item t]
    rfl
  unfold imageProviders ImageProvider.select
  rw [policy_same h t hstates item, List.filter_congr happlies]
  rfl

theorem gatherImages_same (item : Item) (options : RefreshOptions) :
    Same alike (fun a b => b = (a.1.refreshedAt t, a.2)) (m.gatherImages item options)
      (m.gatherImages (item.refreshedAt t) options) := by
  unfold gatherImages
  refine .bind_get fun w w' hworlds => ?_
  rw [imageProviders_same h t hworlds.state item]
  have hround : Same alike (fun a b => b = a.refreshedAt t)
      ((m.imageProviders w.state item options.imageMode false).foldlM
        (m.consultImages options (m.language item)) ⟨item, [], []⟩)
      ((m.imageProviders w.state item options.imageMode false).foldlM
        (m.consultImages options (m.language (item.refreshedAt t)))
          ⟨item.refreshedAt t, [], []⟩) := by
    refine .foldlM ?_ rfl
    rintro g _ rfl p hp
    exact consultImages_same h t (ImageProvider.mem_select.mp hp).1 options _ g
  refine .bind hround ?_
  rintro g _ rfl
  exact .pure (congrArg (·, g.update) (g.item_refreshedAt t))

/-! ## The refresh of one item -/

theorem gather_same (item : Item) (options : RefreshOptions) :
    Same alike (fun a b => b = (a.1.refreshedAt t, a.2)) (m.gather item options)
      (m.gather (item.refreshedAt t) options) := by
  have hwhen {asked : Bool} {step : Item → RefreshM σ (Item × Update)}
      (hstep : ∀ item : Item, Same alike (fun a b => b = (a.1.refreshedAt t, a.2)) (step item)
        (step (item.refreshedAt t))) (item : Item) :
      Same alike (fun a b => b = (a.1.refreshedAt t, a.2)) (gatherWhen asked step item)
        (gatherWhen asked step (item.refreshedAt t)) := by
    cases asked with
    | true => exact hstep item
    | false => exact .pure rfl
  unfold gather
  refine .bind (hwhen (gatherMetadata_same h t · options) item) ?_
  rintro found _ rfl
  refine .bind (hwhen (gatherImages_same h t · options) found.1) ?_
  rintro pictured _ rfl
  exact .pure rfl

theorem turn_same {s : Saver σ} (hs : s ∈ m.providers.savers) (item : Item) (policy : Policy)
    (update : Update) :
    Same alike Eq (s.turn item policy update) (s.turn (item.refreshedAt t) policy update) := by
  have happlies : s.applies (item.refreshedAt t) policy update false =
      s.applies item policy update false := by
    unfold Saver.applies
    rw [← h.providers.accepts s hs item t update]
    rfl
  unfold Saver.turn
  rw [happlies]
  refine .bind_eq .checkCancelled fun _ => ?_
  split
  · exact .bind_eq (.ask rfl (h.providers.save s hs item t)) fun _ => .pure rfl
  · exact .pure rfl

theorem saveMetadata_same (item : Item) (update : Update) :
    Same alike Eq (m.saveMetadata item update)
      (m.saveMetadata (item.refreshedAt t) update) := by
  unfold saveMetadata
  refine .bind_get fun w w' hworlds => ?_
  rw [policy_same h t hworlds.state item]
  exact .forM fun s hs => turn_same h t hs item _ update

theorem persist_same (context : String) (item : Item) (update : Update) :
    Same alike Eq (m.persist context item update)
      (m.persist context (item.refreshedAt t) update) := by
  unfold persist
  refine .bind_eq (.ask rfl (h.host.updateItem item t update)) fun answer => ?_
  cases answer with
  | ok done => exact .note rfl
  | error f => exact .fail _

omit h in
/-- The stamps are those of the two present moments. -/
theorem stamp_same (item : Item) :
    Same alike (fun a b => ∃ t, b = a.refreshedAt t) (m.stamp item)
      (m.stamp (item.refreshedAt t)) := by
  unfold stamp
  exact .bind_get fun w w' hworlds => .pure ⟨some (m.host.now w'.state), rfl⟩

theorem commit_same (item : Item) (update : Update) :
    Same alike Eq (m.commit item update) (m.commit (item.refreshedAt t) update) := by
  unfold commit
  refine .bind (stamp_same t item) ?_
  rintro stamped _ ⟨t', rfl⟩
  exact .bind_eq (persist_same h t' _ stamped update) fun _ => saveMetadata_same h t' stamped update

theorem refreshByProviders_same (item : Item) (options : RefreshOptions) :
    Same alike Eq (m.refreshByProviders item options)
      (m.refreshByProviders (item.refreshedAt t) options) := by
  unfold refreshByProviders
  refine .bind (gather_same h t item options) ?_
  rintro found _ rfl
  dsimp only
  split
  · exact .pure rfl
  · exact .bind_eq (commit_same h t _ _) fun _ => .pure rfl

theorem serve_same {s : Service σ} (hs : s ∈ m.providers.services) (item : Item)
    (options : RefreshOptions) :
    Same alike Eq (m.serve s item options) (m.serve s (item.refreshedAt t) options) := by
  unfold serve
  cases hwork : s.work with
  | consult => exact refreshByProviders_same h t item options
  | own name refresh =>
    refine .bind_eq (.note rfl) fun _ => ?_
    have hconcur := h.providers.serve s hs name refresh hwork item t options
    refine .exchange (fun w w' => hconcur.leaves) fun w w' hworlds => ?_
    rw [← hconcur.answers hworlds]
    cases (refresh item options w.surroundings).outcome with
    | done update => exact .pure rfl
    | failed e => exact .fail e
    | crashed => exact .stop _

theorem service?_same (item : Item) : m.service? (item.refreshedAt t) = m.service? item := by
  have hcan : ∀ s ∈ m.providers.services,
      s.canRefresh (item.refreshedAt t) = s.canRefresh item :=
    fun s hs => (h.providers.canRefresh s hs item t).symm
  unfold service?
  rw [List.find?_congr hcan]
  rfl

omit h t in
theorem mem_of_service? {item : Item} {s : Service σ} (hservice : m.service? item = some s) :
    s ∈ m.providers.services := by
  unfold service? at hservice
  rw [Option.orElse_eq_or] at hservice
  obtain hdedicated | ⟨-, hgeneric⟩ := Option.or_eq_some_iff.mp hservice
  · exact List.mem_of_find?_eq_some hdedicated
  · exact List.mem_of_find?_eq_some hgeneric

theorem refreshSingle_same (item : Item) (options : RefreshOptions) :
    Same alike Eq (m.refreshSingle item options)
      (m.refreshSingle (item.refreshedAt t) options) := by
  unfold refreshSingle
  rw [service?_same h t item]
  refine .bind_eq .checkCancelled fun _ => ?_
  cases hservice : m.service? item with
  | none => exact .pure rfl
  | some s =>
    refine .bind_eq (serve_same h t (mem_of_service? hservice) item options) fun update => ?_
    split
    · exact .pure rfl
    · exact .bind_eq (.note rfl) fun _ => .pure rfl

/-! ## An item and what it contains -/

theorem validateWith_same {onReport : Binary64 → RefreshM σ Unit}
    (hreport : ∀ progress, Same alike Eq (onReport progress) (onReport progress))
    (folder : Item) (options : RefreshOptions) (recursively : Bool) :
    Same alike Eq (m.validateWith onReport folder options recursively)
      (m.validateWith onReport (folder.refreshedAt t) options recursively) := by
  unfold validateWith
  refine .bind_eq (.note rfl) fun _ => ?_
  have hconcur := h.host.validateChildren folder t options recursively
  refine .exchange (fun w w' => hconcur.leaves) fun w w' hworlds => ?_
  obtain ⟨hreports, houtcome⟩ := Prod.mk.inj (hconcur.answers hworlds)
  rw [← hreports, ← houtcome]
  exact .bind_eq (.forM fun progress _ => hreport progress) fun _ => .pure rfl

theorem validate_same (folder : Item) (options : RefreshOptions) (recursively : Bool) :
    Same alike Eq (m.validate folder options recursively)
      (m.validate (folder.refreshedAt t) options recursively) := by
  have hreport (progress : Binary64) : Same alike Eq
      (RefreshM.reportLeniently folder progress : RefreshM σ Unit)
      (RefreshM.reportLeniently folder progress) := .reportLeniently folder progress
  unfold validate
  refine .bind_eq (validateWith_same h t hreport folder options recursively) fun outcome => ?_
  cases outcome with
  | done => exact .pure rfl
  | failed f => exact .bind_eq .checkCancelled fun _ => .fail _
  | crashed => exact .stop _

theorem refreshPhysicalFolder_same (folder : Item) (options : RefreshOptions) :
    Same alike Eq (m.refreshPhysicalFolder options folder)
      (m.refreshPhysicalFolder options (folder.refreshedAt t)) :=
  .during folder (.bind_eq (refreshSingle_same h t folder options) fun _ =>
    validate_same h t folder options true)

omit t in
/-- By induction on the folders, each of which may bear another stamp. -/
theorem refreshFolders_same {folders folders' : List Item}
    (hfolders : List.Forall₂ Item.Akin folders folders') (options : RefreshOptions) :
    Same alike Eq (m.refreshFolders options folders) (m.refreshFolders options folders') := by
  induction hfolders with
  | nil => exact .pure rfl
  | @cons folder _ rest rest' hakin _ ih =>
    obtain ⟨t, rfl⟩ := hakin
    unfold refreshFolders
    refine .bind_eq .checkCancelled fun _ => ?_
    refine .bind_eq (.attempt (refreshPhysicalFolder_same h t folder options)) fun result => ?_
    split
    · exact .fail _
    · exact ih

theorem refreshCollection_same (collection : Item) (options : RefreshOptions) :
    Same alike Eq (m.refreshCollection collection options)
      (m.refreshCollection (collection.refreshedAt t) options) := by
  unfold refreshCollection
  refine .bind_eq (.note rfl) fun _ => .bind_get fun w w' hworlds => ?_
  exact refreshFolders_same h (h.host.physicalFolders hworlds.state collection t) options

/-- The refresh of an item does at another time what it does now. -/
theorem refreshItem_same (item : Item) (options : RefreshOptions) :
    Same alike Eq (m.refreshItem item options)
      (m.refreshItem (item.refreshedAt t) options) := by
  have hkind : (item.refreshedAt t).kind = item.kind := rfl
  refine .during item (.bind_eq (refreshSingle_same h t item options) fun _ => ?_)
  rw [hkind]
  split
  · exact refreshCollection_same h t item options
  · split
    · exact validate_same h t item options false
    · exact .pure rfl

end Manager

end MediaRefresh
