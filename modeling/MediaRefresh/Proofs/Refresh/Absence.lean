import MediaRefresh.Image.Listing
import MediaRefresh.Proofs.Metadata.CallOrder
import MediaRefresh.Proofs.Refresh.Parallel
import MediaRefresh.Search.Remote

/-!
# Refresh: failing providers are as good as absent

A provider or saver that always fails can be left out of the registered ones, and nobody
else notices: the refresh of an item, a search and a listing of images give the same and
make the same calls to all the others.  What "nobody notices" means is a `Likeness`, which
the others and the host must respect and which the calls of those left out must not leave.
-/

set_option autoImplicit false

namespace MediaRefresh

open RefreshM

variable {σ : Type}

/-! ## Those that always fail -/

/-- Looking up always fails, and so does searching, if there is a search. -/
structure MetadataProvider.AlwaysFails (p : MetadataProvider σ) : Prop where
  fetch : ∀ info, Reaction.Fails (p.fetch info)
  search : ∀ search ∈ p.search, ∀ info, Reaction.Fails (search info)

/-- A remote provider whose listing of candidates always fails. -/
def ImageProvider.ListsNothing (p : ImageProvider σ) : Prop :=
  p.source = .remote ∧ ∃ list, p.candidates = some list ∧ ∀ item, Reaction.Fails (list item)

/-- The question whether the provider supports an item always fails, or it is a remote one
and listing candidates does. -/
def ImageProvider.AlwaysFails (p : ImageProvider σ) : Prop :=
  (∀ item, ∃ f, p.supports item = .error f) ∨ p.ListsNothing

/-- Saving always fails. -/
def Saver.AlwaysFails (s : Saver σ) : Prop := ∀ item, Reaction.Fails (s.save item)

/-! ## Leaving out -/

/-- An element of a list that is kept. -/
def Retains {α : Type} (l : List α) (keep : α → Bool) (a : α) : Prop := a ∈ l ∧ keep a = true

/-- An element of a list that is left out. -/
def Discards {α : Type} (l : List α) (keep : α → Bool) (a : α) : Prop := a ∈ l ∧ keep a = false

/-- Which providers and savers are kept. -/
structure Roster (σ : Type) where
  metadata : MetadataProvider σ → Bool
  images : ImageProvider σ → Bool
  savers : Saver σ → Bool

namespace Manager

/-- The manager without those that are not kept. -/
def restrictedTo (m : Manager σ) (kept : Roster σ) : Manager σ :=
  { m with providers := { m.providers with
      metadataProviders := m.providers.metadataProviders.filter kept.metadata
      imageProviders := m.providers.imageProviders.filter kept.images
      savers := m.providers.savers.filter kept.savers } }

/-- All that are left out always fail. -/
structure LeavesOutFailing (m : Manager σ) (kept : Roster σ) : Prop where
  metadata : ∀ p, Discards m.providers.metadataProviders kept.metadata p → p.AlwaysFails
  images : ∀ p, Discards m.providers.imageProviders kept.images p → p.AlwaysFails
  savers : ∀ s, Discards m.providers.savers kept.savers s → s.AlwaysFails

/-- The calls of those that are left out go unnoticed. -/
structure LeavesOutUnnoticed (m : Manager σ) (kept : Roster σ) (like : Likeness σ) : Prop where
  fetch : ∀ p, Discards m.providers.metadataProviders kept.metadata p →
    ∀ info, like.Unnoticed (p.fetch info)
  search : ∀ p, Discards m.providers.metadataProviders kept.metadata p →
    ∀ search ∈ p.search, ∀ info, like.Unnoticed (search info)
  listImages : ∀ p, Discards m.providers.imageProviders kept.images p →
    ∀ list ∈ p.candidates, ∀ item, like.Unnoticed (list item)
  save : ∀ s, Discards m.providers.savers kept.savers s →
    ∀ item, like.Unnoticed (s.save item)

/-- The providers that are kept answer alike in what cannot be told apart. -/
structure KeepsBlind (m : Manager σ) (kept : Roster σ) (like : Likeness σ) : Prop where
  fetch : ∀ p, Retains m.providers.metadataProviders kept.metadata p →
    ∀ info, like.Alike (p.fetch info) (p.fetch info)
  search : ∀ p, Retains m.providers.metadataProviders kept.metadata p →
    ∀ search ∈ p.search, ∀ info, like.Alike (search info) (search info)
  listImages : ∀ p, Retains m.providers.imageProviders kept.images p →
    ∀ list ∈ p.candidates, ∀ item, like.Alike (list item) (list item)
  generateImage : ∀ p, Retains m.providers.imageProviders kept.images p →
    ∀ make ∈ p.generate, ∀ item t, like.Alike (make item t) (make item t)
  downloadImage : ∀ p, Retains m.providers.imageProviders kept.images p →
    ∀ load ∈ p.download, ∀ url, like.Alike (load url) (load url)
  accepts : ∀ s, Retains m.providers.savers kept.savers s →
    ∀ {i j}, like.items i j → ∀ update, s.accepts i update = s.accepts j update
  save : ∀ s, Retains m.providers.savers kept.savers s →
    ∀ {i j}, like.items i j → like.Alike (s.save i) (s.save j)

end Manager

/-- The host answers alike in what cannot be told apart, up to the time. -/
structure Host.Blind (host : Host σ) (like : Likeness σ) : Prop where
  item? : ∀ {x y}, like.states x y → ∀ id, Option.Rel like.items (host.item? x id) (host.item? y id)
  libraryOptions : ∀ {x y i j}, like.states x y → like.items i j →
    host.libraryOptions x i = host.libraryOptions y j
  stampedAt : ∀ {x y}, like.states x y → ∀ i : Item,
    like.items (i.stampedAt (host.now x)) (i.stampedAt (host.now y))
  updateItem : ∀ {i j}, like.items i j → ∀ update,
    like.Alike (host.updateItem i update) (host.updateItem j update)
  saveImage : ∀ item t mediaType data,
    like.Alike (host.saveImage item t mediaType data) (host.saveImage item t mediaType data)

namespace Manager

/-- A line of the journal is a call of someone who is left out, known by name. -/
inductive CallsLeftOut (m : Manager σ) (kept : Roster σ) : Entry → Prop where
  | fetch {p : MetadataProvider σ}
      (out : Discards m.providers.metadataProviders kept.metadata p) (info : LookupInfo) :
      CallsLeftOut m kept (.called (.fetch p.name info))
  | search {p : MetadataProvider σ}
      (out : Discards m.providers.metadataProviders kept.metadata p) (info : LookupInfo) :
      CallsLeftOut m kept (.called (.search p.name info))
  | listImages {p : ImageProvider σ}
      (out : Discards m.providers.imageProviders kept.images p) (item : Item) :
      CallsLeftOut m kept (.called (.listImages p.name item))
  | save {s : Saver σ}
      (out : Discards m.providers.savers kept.savers s) (item : Item) :
      CallsLeftOut m kept (.called (.save s.name item))

/-- What makes leaving out unnoticeable. -/
structure Spares (m : Manager σ) (kept : Roster σ) (like : Likeness σ) : Prop where
  failing : m.LeavesOutFailing kept
  unnoticed : m.LeavesOutUnnoticed kept like
  blind : m.KeepsBlind kept like
  host : m.host.Blind like

/-- The second list is the first without metadata providers that are left out. -/
abbrev ThinsMetadata (m : Manager σ) (kept : Roster σ) :
    List (MetadataProvider σ) → List (MetadataProvider σ) → Prop :=
  Thins (Retains m.providers.metadataProviders kept.metadata)
    (Discards m.providers.metadataProviders kept.metadata)

/-- A way to search, of one of some providers. -/
def SearcherOf (which : MetadataProvider σ → Prop) (s : Searcher σ) : Prop :=
  ∃ p, which p ∧ ∃ search, p.search = some search ∧ s = (p.name, search)

/-- The second list is the first without ways to search of providers that are left out. -/
abbrev ThinsSearchers (m : Manager σ) (kept : Roster σ) :
    List (Searcher σ) → List (Searcher σ) → Prop :=
  Thins (SearcherOf (Retains m.providers.metadataProviders kept.metadata))
    (SearcherOf (Discards m.providers.metadataProviders kept.metadata))

/-- The second list is the first without image providers that are left out.  Of these, only
those whose listing fails are ever selected. -/
abbrev ThinsImages (m : Manager σ) (kept : Roster σ) :
    List (ImageProvider σ) → List (ImageProvider σ) → Prop :=
  Thins (Retains m.providers.imageProviders kept.images)
    fun p => Discards m.providers.imageProviders kept.images p ∧ p.ListsNothing

/-- The actions do the same up to calls of those that are left out. -/
abbrev Beside (m : Manager σ) (kept : Roster σ) (like : Likeness σ) {α : Type}
    (Q : α → α → Prop) (x y : RefreshM σ α) : Prop :=
  Parallel like (m.CallsLeftOut kept) Q x y

variable {m : Manager σ} {kept : Roster σ} {like : Likeness σ}

/-! ## Metadata -/

variable (m kept) in
/-- The selected providers that are kept and those that are left out. -/
theorem thins_metadataProviders (item : Item) (library : LibraryOptions)
    (includeDisabled forceInternet : Bool) :
    m.ThinsMetadata kept (m.metadataProviders item library includeDisabled forceInternet)
      ((m.restrictedTo kept).metadataProviders item library includeDisabled forceInternet) := by
  have hselected : (m.restrictedTo kept).metadataProviders item library includeDisabled
      forceInternet = (m.metadataProviders item library includeDisabled forceInternet).filter
        kept.metadata := (MetadataProvider.filter_select kept.metadata).symm
  rw [hselected]
  exact .of_filter (fun p hp hkept => ⟨(MetadataProvider.mem_select.mp hp).1, hkept⟩)
    fun p hp hout => ⟨(MetadataProvider.mem_select.mp hp).1, hout⟩

variable (h : m.Spares kept like)

include h

theorem consult_beside {p : MetadataProvider σ}
    (hp : Retains m.providers.metadataProviders kept.metadata p) (g : Gathering) :
    m.Beside kept like Eq (p.consult g) (p.consult g) := by
  unfold MetadataProvider.consult
  refine .bind_eq .checkCancelled fun _ =>
    .bind_eq (.ask rfl (h.blind.fetch p hp g.info)) fun answer => ?_
  cases answer with
  | ok r => exact .pure rfl
  | error f => exact .bind_eq .checkCancelled fun _ => .pure rfl

theorem consult_left {p : MetadataProvider σ}
    (hp : Discards m.providers.metadataProviders kept.metadata p) (g : Gathering) :
    m.Beside kept like Eq (p.consult g) (pure g) := by
  unfold MetadataProvider.consult
  exact .checked (.ask_left (.fetch hp g.info) (h.unnoticed.fetch p hp g.info)
    ((h.failing.metadata p hp).fetch g.info) fun _ => .checked (.pure rfl))

theorem consultSource_beside {providers providers' : List (MetadataProvider σ)}
    (hproviders : m.ThinsMetadata kept providers providers') (options : RefreshOptions)
    (g : Gathering) (source : MetadataSource) :
    m.Beside kept like Eq (g.consultSource providers options source)
      (g.consultSource providers' options source) := by
  unfold Gathering.consultSource
  split
  · exact .foldlM (hproviders.filter _) (fun g p hp => consult_beside h hp g)
      (fun g p hp => consult_left h hp g) g
  · exact .pure rfl

theorem gatherMetadata_beside (item : Item) (options : RefreshOptions) :
    m.Beside kept like Eq (m.gatherMetadata item options)
      ((m.restrictedTo kept).gatherMetadata item options) := by
  unfold gatherMetadata
  refine .bind_get fun w w' hworlds => ?_
  have hlibrary : m.host.libraryOptions w.state item = m.host.libraryOptions w'.state item :=
    h.host.libraryOptions hworlds.state (like.items_refl item)
  have hproviders := thins_metadataProviders m kept item
    (m.host.libraryOptions w.state item) false false
  rw [hlibrary] at hproviders ⊢
  refine .bind_eq (.foldlM_same (fun g source => ?_) _ _) fun g => .pure rfl
  exact consultSource_beside h hproviders options g source

/-! ## Images -/

theorem thins_imageProviders {x y : σ} (hstates : like.states x y) (item : Item)
    (mode : RefreshMode) (includeDisabled : Bool) :
    m.ThinsImages kept (m.imageProviders x item mode includeDisabled)
      ((m.restrictedTo kept).imageProviders y item mode includeDisabled) := by
  have hpolicy : m.policy x item = (m.restrictedTo kept).policy y item := by
    unfold policy
    rw [h.host.libraryOptions hstates (like.items_refl item)]
    rfl
  have hselected : (m.restrictedTo kept).imageProviders y item mode includeDisabled =
      (m.imageProviders x item mode includeDisabled).filter kept.images := by
    unfold imageProviders
    rw [ImageProvider.filter_select, hpolicy]
    rfl
  rw [hselected]
  refine .of_filter (fun p hp hkept => ⟨(ImageProvider.mem_select.mp hp).1, hkept⟩)
    fun p hp hout => ?_
  obtain ⟨hmem, happlies⟩ := ImageProvider.mem_select.mp hp
  refine ⟨⟨hmem, hout⟩, ?_⟩
  obtain hsupports | hlists := h.failing.images p ⟨hmem, hout⟩
  · -- A provider that cannot say whether it supports the item is not selected.
    obtain ⟨f, hf⟩ := hsupports item
    have hagreed := (Bool.and_eq_true_iff.mp happlies).2
    rw [hf] at hagreed
    cases hagreed
  · exact hlists

theorem listCandidates_beside {p : ImageProvider σ}
    (hp : Retains m.providers.imageProviders kept.images p) (item : Item) :
    m.Beside kept like Eq (p.listCandidates item) (p.listCandidates item) := by
  unfold ImageProvider.listCandidates
  cases hlist : p.candidates with
  | none => exact .pure rfl
  | some list => exact .ask rfl (h.blind.listImages p hp list hlist item)

theorem listCandidates_left {p : ImageProvider σ}
    (hp : Discards m.providers.imageProviders kept.images p ∧ p.ListsNothing) (item : Item)
    {β : Type} {R : β → β → Prop} {f : Except Failure (List RemoteImage) → RefreshM σ β}
    {y : RefreshM σ β} (hf : ∀ failure, m.Beside kept like R (f (.error failure)) y) :
    m.Beside kept like R (p.listCandidates item >>= f) y := by
  obtain ⟨hout, -, list, hlist, hfails⟩ := hp
  unfold ImageProvider.listCandidates
  rw [hlist]
  exact .ask_left (.listImages hout item) (h.unnoticed.listImages p hout list hlist item)
    (hfails item) hf

theorem generateImage_beside {p : ImageProvider σ}
    (hp : Retains m.providers.imageProviders kept.images p) (item : Item) (t : ImageType) :
    m.Beside kept like Eq (p.generateImage item t) (p.generateImage item t) := by
  unfold ImageProvider.generateImage
  cases hmake : p.generate with
  | none => exact .pure rfl
  | some make => exact .ask rfl (h.blind.generateImage p hp make hmake item t)

theorem downloadImage_beside {p : ImageProvider σ}
    (hp : Retains m.providers.imageProviders kept.images p) (url : String) :
    m.Beside kept like Eq (p.downloadImage url) (p.downloadImage url) := by
  unfold ImageProvider.downloadImage
  cases hload : p.download with
  | none => exact .pure rfl
  | some load => exact .ask rfl (h.blind.downloadImage p hp load hload url)

theorem storeImage_beside (item : Item) (t : ImageType) (mediaType data : String) :
    m.Beside kept like Eq (m.storeImage item t mediaType data)
      ((m.restrictedTo kept).storeImage item t mediaType data) :=
  .ask rfl (h.host.saveImage item t mediaType data)

theorem supplyFiles_beside {p : ImageProvider σ}
    (hp : Retains m.providers.imageProviders kept.images p) (item : Item)
    (wanted : List ImageType) :
    m.Beside kept like Eq (p.supplyFiles item wanted) (p.supplyFiles item wanted) := by
  unfold ImageProvider.supplyFiles
  refine .bind_eq (listCandidates_beside h hp item) fun answer => ?_
  cases answer with
  | ok images => exact .pure rfl
  | error f => exact .pure rfl

theorem supplyGenerated_beside {p : ImageProvider σ}
    (hp : Retains m.providers.imageProviders kept.images p) (item : Item)
    (wanted : List ImageType) (s : Supply) :
    m.Beside kept like Eq (m.supplyGenerated p item wanted s)
      ((m.restrictedTo kept).supplyGenerated p item wanted s) := by
  induction wanted generalizing s with
  | nil => exact .pure rfl
  | cons t rest ih =>
    unfold supplyGenerated
    refine .bind_eq (generateImage_beside h hp _ t) fun answer => ?_
    cases answer with
    | error f => exact .pure rfl
    | ok made =>
      cases made with
      | none => exact ih s
      | some response =>
        refine .bind_eq (storeImage_beside h _ t _ _) fun stored => ?_
        cases stored with
        | error f => exact .pure rfl
        | ok image => exact ih _

theorem supplyDownloads_beside {p : ImageProvider σ}
    (hp : Retains m.providers.imageProviders kept.images p) (language : String)
    (candidates : List RemoteImage) (item : Item) (wanted : List ImageType) (s : Supply) :
    m.Beside kept like Eq (m.supplyDownloads p language candidates item wanted s)
      ((m.restrictedTo kept).supplyDownloads p language candidates item wanted s) := by
  induction wanted generalizing s with
  | nil => exact .pure rfl
  | cons t rest ih =>
    unfold supplyDownloads
    cases RemoteImage.best? language t candidates with
    | none => exact ih s
    | some best =>
      refine .bind_eq (downloadImage_beside h hp _) fun answer => ?_
      cases answer with
      | error f => exact ih s
      | ok response =>
        dsimp only
        cases MediaType.validate best.url response.contentType with
        | error e => exact ih s
        | ok mediaType =>
          refine .bind_eq (storeImage_beside h _ t _ _) fun stored => ?_
          cases stored with
          | error f => exact .pure rfl
          | ok image => exact ih _

theorem supply_beside {p : ImageProvider σ}
    (hp : Retains m.providers.imageProviders kept.images p) (language : String) (item : Item)
    (wanted : List ImageType) : m.Beside kept like Eq (m.supply p language item wanted)
      ((m.restrictedTo kept).supply p language item wanted) := by
  unfold supply
  cases p.source with
  | disk => exact supplyFiles_beside h hp item wanted
  | dynamic => exact supplyGenerated_beside h hp item wanted _
  | remote =>
    refine .bind_eq (listCandidates_beside h hp item) fun answer => ?_
    cases answer with
    | ok candidates => exact supplyDownloads_beside h hp language candidates item wanted _
    | error f => exact .pure rfl

theorem consultImages_beside {p : ImageProvider σ}
    (hp : Retains m.providers.imageProviders kept.images p) (options : RefreshOptions)
    (language : String) (g : ImageGathering) :
    m.Beside kept like Eq (m.consultImages options language g p)
      ((m.restrictedTo kept).consultImages options language g p) := by
  unfold consultImages
  refine .bind_eq .checkCancelled fun _ => ?_
  dsimp only
  split
  · exact .pure rfl
  · refine .bind_eq (supply_beside h hp language g.item _) fun s => ?_
    split
    · exact .bind_eq .checkCancelled fun _ => .pure rfl
    · exact .pure rfl

/-- A failure to list candidates supplies nothing. -/
theorem consultImages_left {p : ImageProvider σ}
    (hp : Discards m.providers.imageProviders kept.images p ∧ p.ListsNothing)
    (options : RefreshOptions) (language : String) (g : ImageGathering) :
    m.Beside kept like Eq (m.consultImages options language g p) (pure g) := by
  have hnothing (f : Failure) : g.take (Supply.none.stop f) = g := by
    simp [ImageGathering.take, Supply.none, Supply.stop]
  unfold consultImages supply
  refine .checked ?_
  dsimp only
  split
  · exact .pure rfl
  · rw [hp.2.1]
    dsimp only
    rw [bind_assoc]
    refine listCandidates_left h hp g.item fun f => ?_
    have hfailed : (Supply.none.stop f).failure.isSome = true := rfl
    rw [pure_bind, if_pos hfailed]
    exact .checked (.pure (hnothing f))

theorem gatherImages_beside (item : Item) (options : RefreshOptions) :
    m.Beside kept like Eq (m.gatherImages item options)
      ((m.restrictedTo kept).gatherImages item options) := by
  unfold gatherImages
  refine .bind_get fun w w' hworlds => ?_
  refine .bind_eq (.foldlM (thins_imageProviders h hworlds.state item _ false)
    (fun g p hp => consultImages_beside h hp options _ g)
    (fun g p hp => consultImages_left h hp options _ g) _) fun g => .pure rfl

/-! ## The refresh -/

theorem gather_beside (item : Item) (options : RefreshOptions) :
    m.Beside kept like Eq (m.gather item options)
      ((m.restrictedTo kept).gather item options) := by
  have hwhen {asked : Bool} {step step' : Item → RefreshM σ (Item × Update)}
      (hstep : ∀ item, m.Beside kept like Eq (step item) (step' item)) (item : Item) :
      m.Beside kept like Eq (gatherWhen asked step item) (gatherWhen asked step' item) := by
    cases asked with
    | true => exact hstep item
    | false => exact .pure rfl
  unfold gather
  refine .bind_eq (hwhen (gatherMetadata_beside h · options) item) fun found => ?_
  exact .bind_eq (hwhen (gatherImages_beside h · options) found.1) fun pictured => .pure rfl

theorem stamp_beside (item : Item) : m.Beside kept like like.items (m.stamp item)
    ((m.restrictedTo kept).stamp item) := by
  unfold stamp
  exact .bind_get fun w w' hworlds => .pure (h.host.stampedAt hworlds.state item)

theorem persist_beside (context : String) {i j : Item} (hitems : like.items i j)
    (update : Update) : m.Beside kept like Eq (m.persist context i update)
      ((m.restrictedTo kept).persist context j update) := by
  have hlines : i.unstamped = j.unstamped := like.unstamped_eq hitems
  unfold persist
  refine .bind_eq (.ask ?_ (h.host.updateItem hitems update)) fun answer => ?_
  · simp only [Entry.unstamped, hlines]
  · cases answer with
    | ok done => exact .note (by simp only [Entry.unstamped, hlines])
    | error f => exact .fail _

/-- A saver does not look at the time of the refresh. -/
theorem turn_beside {s : Saver σ} (hs : Retains m.providers.savers kept.savers s) {i j : Item}
    (hitems : like.items i j) (policy : Policy) (update : Update) :
    m.Beside kept like Eq (s.turn i policy update) (s.turn j policy update) := by
  have hlines : i.unstamped = j.unstamped := like.unstamped_eq hitems
  have hpath : i.path = j.path := Item.eq_of_unstamped (fun _ => rfl) hlines
  have happlies : s.applies i policy update false = s.applies j policy update false := by
    unfold Saver.applies Item.supportsLocalMetadata
    rw [h.blind.accepts s hs hitems, hpath]
  unfold Saver.turn
  rw [happlies]
  refine .bind_eq .checkCancelled fun _ => ?_
  split
  · refine .bind_eq (.ask ?_ (h.blind.save s hs hitems)) fun _ => .pure rfl
    simp only [Entry.unstamped, hlines]
  · exact .pure rfl

theorem turn_left {s : Saver σ} (hs : Discards m.providers.savers kept.savers s) (item : Item)
    (policy : Policy) (update : Update) :
    m.Beside kept like Eq (s.turn item policy update) (pure ()) := by
  unfold Saver.turn
  refine .checked ?_
  split
  · exact .ask_left (.save hs item.unstamped) (h.unnoticed.save s hs item)
      (h.failing.savers s hs item) fun _ => .pure rfl
  · exact .pure rfl

theorem saveMetadata_beside {i j : Item} (hitems : like.items i j) (update : Update) :
    m.Beside kept like Eq (m.saveMetadata i update)
      ((m.restrictedTo kept).saveMetadata j update) := by
  unfold saveMetadata
  refine .bind_get fun w w' hworlds => ?_
  have hkind : i.kind = j.kind := Item.eq_of_unstamped (fun _ => rfl) (like.unstamped_eq hitems)
  have hpolicy : m.policy w.state i = (m.restrictedTo kept).policy w'.state j := by
    unfold policy kindOptions
    rw [h.host.libraryOptions hworlds.state hitems, hkind]
    rfl
  have hsavers : Thins (Retains m.providers.savers kept.savers)
      (Discards m.providers.savers kept.savers) m.providers.savers
      (m.providers.savers.filter kept.savers) := .of_filter (fun _ => .intro) fun _ => .intro
  rw [hpolicy]
  exact .forM hsavers (fun s hs => turn_beside h hs hitems _ update)
    fun s hs => turn_left h hs i _ update

theorem commit_beside (item : Item) (update : Update) :
    m.Beside kept like Eq (m.commit item update) ((m.restrictedTo kept).commit item update) := by
  unfold commit
  refine .bind (stamp_beside h item) like.items_refl fun i j hitems => ?_
  have hid : i.id = j.id := Item.eq_of_unstamped (fun _ => rfl) (like.unstamped_eq hitems)
  rw [hid]
  exact .bind_eq (persist_beside h _ hitems update) fun _ => saveMetadata_beside h hitems update

theorem refreshByProviders_beside (item : Item) (options : RefreshOptions) :
    m.Beside kept like Eq (m.refreshByProviders item options)
      ((m.restrictedTo kept).refreshByProviders item options) := by
  unfold refreshByProviders
  refine .bind_eq (gather_beside h item options) fun found => ?_
  dsimp only
  split
  · exact .pure rfl
  · exact .bind_eq (commit_beside h _ _) fun _ => .pure rfl

/-! ## Search -/

omit h in
/-- Selection does not look at the time of the refresh. -/
theorem metadataProviders_of_unstamped {i j : Item} (hitems : i.unstamped = j.unstamped)
    (library : LibraryOptions) (includeDisabled forceInternet : Bool) :
    m.metadataProviders i library includeDisabled forceInternet =
      m.metadataProviders j library includeDisabled forceInternet :=
  Item.eq_of_unstamped (f := (m.metadataProviders · library includeDisabled forceInternet))
    (fun _ => rfl) hitems

theorem searchReference_beside {x y : σ} (hstates : like.states x y) (query : SearchQuery) :
    (m.searchReference x query).1.unstamped =
        ((m.restrictedTo kept).searchReference y query).1.unstamped ∧
      (m.searchReference x query).2 = ((m.restrictedTo kept).searchReference y query).2 := by
  unfold searchReference
  cases query.itemId with
  | none => exact ⟨rfl, rfl⟩
  | some id =>
    have hfound := h.host.item? hstates id
    have hhost : (m.restrictedTo kept).host = m.host := rfl
    rw [hhost, Option.bind_some, Option.bind_some]
    cases hx : m.host.item? x id with
    | none =>
      cases hy : m.host.item? y id with
      | none => exact ⟨rfl, rfl⟩
      | some j =>
        rw [hx, hy] at hfound
        cases hfound
    | some i =>
      cases hy : m.host.item? y id with
      | none =>
        rw [hx, hy] at hfound
        cases hfound
      | some j =>
        rw [hx, hy] at hfound
        cases hfound with
        | some hitems => exact ⟨like.unstamped_eq hitems, h.host.libraryOptions hstates hitems⟩

theorem thins_searchers {x y : σ} (hstates : like.states x y) (query : SearchQuery) :
    m.ThinsSearchers kept (m.searchers x query) ((m.restrictedTo kept).searchers y query) := by
  have hof {which : MetadataProvider σ → Prop} (p : MetadataProvider σ) (s : Searcher σ)
      (hp : which p) (hs : (p.search.map fun search => (p.name, search)) = some s) :
      SearcherOf which s := by
    obtain ⟨search, hsearch, hs⟩ := Option.map_eq_some_iff.mp hs
    exact ⟨p, hp, search, hsearch, hs.symm⟩
  obtain ⟨hitems, hlibrary⟩ := searchReference_beside h hstates query
  have hproviders := thins_metadataProviders m kept
    (m.searchReference x query).1 (m.searchReference x query).2 query.includeDisabled false
  have hsame : (m.restrictedTo kept).metadataProviders (m.searchReference x query).1
      (m.searchReference x query).2 query.includeDisabled false =
      (m.restrictedTo kept).metadataProviders ((m.restrictedTo kept).searchReference y query).1
        ((m.restrictedTo kept).searchReference y query).2 query.includeDisabled false := by
    rw [metadataProviders_of_unstamped hitems, hlibrary]
  rw [hsame] at hproviders
  exact (hproviders.filterMap hof hof).filter _

theorem searchEach_beside {searchers searchers' : List (Searcher σ)}
    (hsearchers : m.ThinsSearchers kept searchers searchers') (info : LookupInfo) :
    m.Beside kept like Eq (searchEach info searchers) (searchEach info searchers') := by
  induction hsearchers with
  | nil => exact .pure rfl
  | keep hs _ ih =>
    obtain ⟨p, hp, search, hsearch, rfl⟩ := hs
    unfold searchEach
    refine .bind_eq (.ask rfl (h.blind.search p hp search hsearch info)) fun answer => ?_
    cases answer with
    | ok hits => exact .bind_eq ih fun _ => .pure rfl
    | error f => exact ih
  | drop hs _ ih =>
    obtain ⟨p, hp, search, hsearch, rfl⟩ := hs
    rw [searchEach]
    exact .ask_left (.search hp info) (h.unnoticed.search p hp search hsearch info)
      ((h.failing.metadata p hp).search search hsearch info) fun f => ih

theorem search_beside (query : SearchQuery) :
    m.Beside kept like Eq (m.search query) ((m.restrictedTo kept).search query) := by
  unfold search
  refine .bind_get fun w w' hworlds => ?_
  refine .bind_eq (searchEach_beside h (thins_searchers h hworlds.state query) _) fun batches => ?_
  exact .bind_eq .checkCancelled fun _ => .pure rfl

/-! ## Images to choose from -/

theorem listEach_beside {providers providers' : List (ImageProvider σ)}
    (hproviders : m.ThinsImages kept providers providers') (item : Item) :
    m.Beside kept like Eq (listEach item providers) (listEach item providers') := by
  induction hproviders with
  | nil => exact .pure rfl
  | keep hp _ ih =>
    unfold listEach
    refine .bind_eq (listCandidates_beside h hp item) fun answer => ?_
    cases answer with
    | ok images => exact .bind_eq ih fun _ => .pure rfl
    | error f => exact ih
  | drop hp _ ih =>
    rw [listEach]
    exact listCandidates_left h hp item fun f => ih

theorem availableImages_beside (item : Item) (q : RemoteImageQuery) :
    m.Beside kept like Eq (m.availableImages item q)
      ((m.restrictedTo kept).availableImages item q) := by
  unfold availableImages
  refine .bind_get fun w w' hworlds => .bind_eq .checkCancelled fun _ => ?_
  refine .bind_eq (listEach_beside h ?_ item) fun images => .pure rfl
  exact (((thins_imageProviders h hworlds.state item .full true).filter _).filter _).filter _

omit h in
/-- Those that fail without an effect on the outside go unnoticed by everybody. -/
theorem spares_equality (hfailing : m.LeavesOutFailing kept)
    (hunnoticed : m.LeavesOutUnnoticed kept .equality) : m.Spares kept .equality where
  failing := hfailing
  unnoticed := hunnoticed
  blind :=
    { fetch := fun _ _ _ => .equality_refl
      search := fun _ _ _ _ _ => .equality_refl
      listImages := fun _ _ _ _ _ => .equality_refl
      generateImage := fun _ _ _ _ _ _ => .equality_refl
      downloadImage := fun _ _ _ _ _ => .equality_refl
      accepts := by
        rintro _ _ _ _ rfl _
        rfl
      save := by
        rintro _ _ _ _ rfl
        exact .equality_refl }
  host :=
    { item? := by
        rintro x _ rfl id
        cases m.host.item? x id with
        | none => exact .none
        | some i => exact .some rfl
      libraryOptions := by
        rintro _ _ _ _ rfl rfl
        rfl
      stampedAt := by
        rintro _ _ rfl _
        rfl
      updateItem := by
        rintro _ _ rfl _
        exact .equality_refl
      saveImage := fun _ _ _ _ => .equality_refl }

omit h in
/-- Providers and savers that always fail may as well be absent.  As long as no cancellation
fires, the refresh of an item, a search and a listing of images give the same without them,
and make the same calls, one after the other, of all the others: the journals differ in the
calls of those left out, and in the time with which an item is persisted. -/
theorem failing_as_absent (m : Manager σ) (kept : Roster σ) (like : Likeness σ)
    (h : m.Spares kept like) (w : World σ) :
    (∀ item options, (World.after (m.refreshByProviders item options w)).cancelled = false →
      Ends like (m.CallsLeftOut kept) Eq (m.refreshByProviders item options w)
        ((m.restrictedTo kept).refreshByProviders item options w)) ∧
    (∀ query, (World.after (m.search query w)).cancelled = false →
      Ends like (m.CallsLeftOut kept) Eq (m.search query w)
        ((m.restrictedTo kept).search query w)) ∧
    ∀ item q, (World.after (m.availableImages item q w)).cancelled = false →
      Ends like (m.CallsLeftOut kept) Eq (m.availableImages item q w)
        ((m.restrictedTo kept).availableImages item q w) :=
  ⟨fun item options => (refreshByProviders_beside h item options).ends (.refl w),
    fun query => (search_beside h query).ends (.refl w),
    fun item q => (availableImages_beside h item q).ends (.refl w)⟩

end Manager

/-! ## One of each kind -/

namespace Rehearsal

/-- A catalogue that never answers, and comes first. -/
def brokenCatalogue : MetadataProvider Stage :=
  { catalogue with
    name := "Broken"
    order := -1
    fetch := fun _ => answer (.error (.of "no answer")) false
    search := some fun _ => answer (.error (.of "no answer")) false }

/-- A gallery that never answers. -/
def brokenGallery : ImageProvider Stage where
  name := "Broken"
  source := .remote
  order := 0
  supports := fun _ => .ok true
  types := fun _ => [.primary]
  candidates := some fun _ => answer (.error (.of "no answer")) false
  generate := none
  download := none

/-- A saver that cannot write. -/
def brokenSaver : Saver Stage :=
  ⟨"Broken", true, fun _ _ => .ok true, fun _ => answer (.error (.of "read only")) false⟩

/-- A manager with all that is broken, and with a catalogue that works. -/
def broken : Manager Stage :=
  { twoProviders false with
    providers := { ProviderSet.empty with
      metadataProviders := [brokenCatalogue, catalogue]
      imageProviders := [brokenGallery]
      savers := [brokenSaver] } }

/-- What is not broken. -/
def working : Roster Stage where
  metadata p := p.name != "Broken"
  images p := p.name != "Broken"
  savers s := s.name != "Broken"

theorem broken_spares : broken.Spares working .equality := by
  have hmetadata : ∀ p, Discards broken.providers.metadataProviders working.metadata p →
      p = brokenCatalogue := by
    rintro p ⟨hp, hout⟩
    obtain rfl | rfl := List.mem_pair.mp hp
    · rfl
    · cases hout
  have himages : ∀ p, Discards broken.providers.imageProviders working.images p →
      p = brokenGallery := fun p hp => List.mem_singleton.mp hp.1
  have hsavers : ∀ s, Discards broken.providers.savers working.savers s → s = brokenSaver :=
    fun s hs => List.mem_singleton.mp hs.1
  have hanswer {α : Type} {f : Failure} : Reaction.Fails (answer (α := α) (.error f) false) :=
    fun _ => ⟨f, rfl⟩
  refine Manager.spares_equality ⟨fun p hp => ?_, fun p hp => ?_, fun s hs => ?_⟩
    ⟨fun p hp => ?_, fun p hp => ?_, fun p hp => ?_, fun s hs => ?_⟩
  · obtain rfl := hmetadata p hp
    exact ⟨fun _ => hanswer, fun _ hsearch _ => Option.some.inj hsearch ▸ hanswer⟩
  · obtain rfl := himages p hp
    exact Or.inr ⟨rfl, _, rfl, fun _ => hanswer⟩
  · obtain rfl := hsavers s hs
    exact fun _ => hanswer
  · obtain rfl := hmetadata p hp
    rintro info _ _ rfl
    rfl
  · obtain rfl := hmetadata p hp
    rintro search hsearch info _ _ rfl
    exact Option.some.inj hsearch ▸ rfl
  · obtain rfl := himages p hp
    rintro list hlist item _ _ rfl
    exact Option.some.inj hlist ▸ rfl
  · obtain rfl := hsavers s hs
    rintro item _ _ rfl
    rfl

end Rehearsal

open Rehearsal in
/-- The film is found in the catalogue that works, and persisted as without the others. -/
theorem Manager.broken_not_missed :
    ∃ w', broken.refreshByProviders film { RefreshOptions.standard with imageMode := .skip }
        (.fresh emptyStage) = .ok (.only .metadataDownload) w' ∧
      Ends .equality (broken.CallsLeftOut working) Eq (.ok (.only .metadataDownload) w')
        ((broken.restrictedTo working).refreshByProviders film
          { RefreshOptions.standard with imageMode := .skip } (.fresh emptyStage)) := by
  have hselected : broken.selected emptyStage film = [brokenCatalogue, catalogue] := by
    refine MetadataProvider.select_of_ordered ?_ ?_
    · decide
    · decide
  let item := { film with
    genres := ["Action"], externalIds := .collect [("Imdb", "tt0090605")] }
  have hfound : ∃ mid, broken.gatherMetadata film
      { RefreshOptions.standard with imageMode := .skip } (.fresh emptyStage) =
        .ok (item, .only .metadataDownload) mid ∧ mid.state = emptyStage ∧
          mid.cancelled = false := by
    rw [gatherMetadata_eq]
    unfold World.fresh
    rw [hselected]
    exact ⟨_, rfl, rfl, rfl⟩
  obtain ⟨⟨state, cancelled, tracker, journal⟩, hfound, rfl, rfl⟩ := hfound
  have hrun : ∃ w', broken.refreshByProviders film
      { RefreshOptions.standard with imageMode := .skip } (.fresh emptyStage) =
        .ok (.only .metadataDownload) w' ∧ w'.cancelled = false := by
    have hgather : broken.gather film { RefreshOptions.standard with imageMode := .skip }
        (.fresh emptyStage) = .ok (item, .only .metadataDownload)
          ⟨emptyStage, false, tracker, journal⟩ := bind_of_ok hfound
    unfold refreshByProviders
    rw [bind_of_ok hgather]
    exact ⟨_, rfl, rfl⟩
  obtain ⟨w', hrun, hactive⟩ := hrun
  have hends := (failing_as_absent broken working .equality broken_spares (.fresh emptyStage)).1
    film { RefreshOptions.standard with imageMode := .skip } (by rw [hrun]; exact hactive)
  exact ⟨w', hrun, hrun ▸ hends⟩

end MediaRefresh
