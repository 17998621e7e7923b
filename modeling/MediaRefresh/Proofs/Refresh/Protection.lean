import MediaRefresh.Proofs.Image.Round
import MediaRefresh.Proofs.Metadata.CallOrder

/-!
# Refresh: locked and owned items

A locked item is refreshed as if there were no providers but the local and the forced ones,
and what it holds already is kept in every item that the refresh shows to anyone.  An owned
item is refreshed as if there were no local and no remote providers of metadata.
-/

set_option autoImplicit false

namespace MediaRefresh

open RefreshM

variable {σ : Type}

/-! ## What gathering metadata makes of an item -/

/-- The second item is the first with other metadata, and if that is locked, with all the
metadata that it had. -/
def Item.RevisedTo (item item' : Item) : Prop :=
  item' = item.withMetadataOf item' ∧ (item.locked = true → Retained item item')

namespace Manager

variable (m : Manager σ) {item : Item} {options : RefreshOptions}
  {keepMetadata : MetadataProvider σ → Bool} {keepImages : ImageProvider σ → Bool}

theorem gatherMetadata_returns {w w' : World σ} {found : Item × Update}
    (h : m.gatherMetadata item options w = .ok found w') : item.RevisedTo found.1 := by
  have hend := m.gatherMetadata_end item options w
  rw [h] at hend
  cases hend with
  | gathered hround _ =>
    rw [Item.RevisedTo, hround.item_eq]
    refine ⟨item.withResults_withMetadataOf, fun hlocked => ?_⟩
    have hkeeps : (m.gathering item options).overwrite = false := by simp [gathering, hlocked]
    rw [hkeeps]
    exact item.withResults_retained

theorem metadataStep_ensures {I : Item → Prop} : Ensures (Entry.GathersOf I)
    (fun found => item.RevisedTo found.1)
    (gatherWhen options.metadataMode.fetches (m.gatherMetadata · options) item) := by
  have hgathers := m.gatherMetadata_gathers (I := I) item options
  have hstep : Ensures (Entry.GathersOf I) (fun found => item.RevisedTo found.1)
      (m.gatherMetadata item options) :=
    ⟨hgathers.adds, fun _ _ _ hres => m.gatherMetadata_returns hres, hgathers.noCrash⟩
  exact gatherWhen_ensures hstep ⟨rfl, fun _ => .refl item⟩

/-! ## Some of the providers only -/

/-- The manager with some of its providers only. -/
def only (keepMetadata : MetadataProvider σ → Bool) (keepImages : ImageProvider σ → Bool) :
    Manager σ :=
  { m with providers := { m.providers with
      metadataProviders := m.providers.metadataProviders.filter keepMetadata
      imageProviders := m.providers.imageProviders.filter keepImages } }

theorem only_gatherMetadata
    (hkeep : ∀ policy p, p.applies item policy false false = true → keepMetadata p = true)
    (w : World σ) : (m.only keepMetadata keepImages).gatherMetadata item options w =
      m.gatherMetadata item options w := by
  have hselected : (m.only keepMetadata keepImages).selected w.state item =
      m.selected w.state item := MetadataProvider.select_filter (hkeep _)
  rw [gatherMetadata_eq, gatherMetadata_eq, hselected]
  rfl

theorem only_supplyGenerated (p : ImageProvider σ) (item : Item) (wanted : List ImageType)
    (s : Supply) : (m.only keepMetadata keepImages).supplyGenerated p item wanted s =
      m.supplyGenerated p item wanted s := by
  induction wanted generalizing s with
  | nil => rfl
  | cons t rest ih =>
    unfold supplyGenerated
    simp only [ih]
    rfl

theorem only_supplyDownloads (p : ImageProvider σ) (language : String)
    (candidates : List RemoteImage) (item : Item) (wanted : List ImageType) (s : Supply) :
    (m.only keepMetadata keepImages).supplyDownloads p language candidates item wanted s =
      m.supplyDownloads p language candidates item wanted s := by
  induction wanted generalizing s with
  | nil => rfl
  | cons t rest ih =>
    unfold supplyDownloads
    simp only [ih]
    rfl

theorem only_consultImages (options : RefreshOptions) (language : String) (g : ImageGathering)
    (p : ImageProvider σ) :
    (m.only keepMetadata keepImages).consultImages options language g p =
      m.consultImages options language g p := by
  unfold consultImages supply
  simp only [only_supplyGenerated, only_supplyDownloads]

theorem only_gatherImages
    (hkeep : ∀ policy p, p.applies item policy options.imageMode false = true →
      keepImages p = true)
    (w : World σ) : (m.only keepMetadata keepImages).gatherImages item options w =
      m.gatherImages item options w := by
  have hproviders : (m.only keepMetadata keepImages).imageProviders w.state item
      options.imageMode false = m.imageProviders w.state item options.imageMode false :=
    ImageProvider.select_filter (hkeep _)
  have hconsult : (m.only keepMetadata keepImages).consultImages options (m.language item) =
      m.consultImages options (m.language item) := by
    funext g p
    exact m.only_consultImages options _ g p
  rw [gatherImages_eq, gatherImages_eq, hproviders, ← hconsult]
  rfl

/-- Providers that are not asked may as well be missing.  The images are gathered for the
item with its new metadata. -/
theorem only_gather
    (hmetadata : ∀ policy p, p.applies item policy false false = true → keepMetadata p = true)
    (himages : ∀ other policy p, p.applies (item.withMetadataOf other) policy options.imageMode
      false = true → keepImages p = true)
    (w : World σ) :
    (m.only keepMetadata keepImages).gather item options w = m.gather item options w := by
  unfold gather
  refine bind_congr_of ?_ fun found mid hfound => bind_congr_of ?_ fun _ _ _ => rfl
  · unfold gatherWhen
    split
    · exact m.only_gatherMetadata hmetadata w
    · rfl
  · have hrevised := (m.metadataStep_ensures (I := fun _ => True)).returns w found mid hfound
    unfold gatherWhen
    split
    · refine m.only_gatherImages (fun policy p happlies => ?_) mid
      rw [hrevised.1] at happlies
      exact himages _ policy p happlies
    · rfl

theorem only_refreshByProviders
    (hmetadata : ∀ policy p, p.applies item policy false false = true → keepMetadata p = true)
    (himages : ∀ other policy p, p.applies (item.withMetadataOf other) policy options.imageMode
      false = true → keepImages p = true)
    (w : World σ) : (m.only keepMetadata keepImages).refreshByProviders item options w =
      m.refreshByProviders item options w :=
  bind_congr_of (m.only_gather hmetadata himages w) fun _ _ _ => rfl

end Manager

/-! ## What the refresh of a locked item shows -/

/-- What a locked item holds is there in another state of it: its metadata, and its images
unless they are all fetched again. -/
def Item.SparedIn (item : Item) (mode : RefreshMode) (i : Item) : Prop :=
  Retained item i ∧ (mode ≠ .full → item.images <+: i.images)

namespace Item

variable {item i : Item} {image : ItemImage} {t : ImageType}

theorem hasImage_of_prefix (h : item.images <+: i.images) (hlacks : i.hasImage t = false) :
    item.hasImage t = false := by
  unfold hasImage at hlacks ⊢
  rw [List.any_eq_false] at hlacks ⊢
  exact fun a ha => hlacks a (h.subset ha)

/-- A new image of a type that is missing goes behind those that are there. -/
theorem images_prefix_setImage (h : item.images <+: i.images)
    (hlacks : item.hasImage image.imageType = false) :
    item.images <+: (i.setImage image).images := by
  obtain ⟨rest, hrest⟩ := h
  have hothers : item.images.filter (·.imageType != image.imageType) = item.images := by
    refine List.filter_eq_self.mpr fun a ha => ?_
    simpa using List.any_eq_false.mp hlacks a ha
  unfold setImage
  rw [← hrest, List.filter_append, hothers, List.append_assoc]
  exact List.prefix_append _ _

end Item

theorem RefreshOptions.mode_of_replaces {options : RefreshOptions} {t : ImageType}
    (h : options.replaces t = true) : options.imageMode = .full := by
  simpa using (Bool.and_eq_true_iff.mp h).1

namespace Manager

variable (m : Manager σ) {item now : Item} {options : RefreshOptions}

/-- A locked item gets images from local providers only, of types that it lacks. -/
theorem sparedIn_kept (hlocked : item.locked = true) (hrevised : item.RevisedTo now) :
    m.KeptByImages now options (item.SparedIn options.imageMode) := by
  intro state p hp shown i image hshown hi hlocal
  refine ⟨fun f hpresent => hi.1 f hpresent, fun hmode => ?_⟩
  have hsource : p.source = .disk := by
    have happlies := (ImageProvider.mem_select.mp hp).2
    have hnow : now.locked = true := by rw [hrevised.1]; exact hlocked
    exact p.source_of_locked happlies hnow hmode
  obtain hlacks | hreplaces := hlocal hsource
  · exact Item.images_prefix_setImage (hi.2 hmode)
      (Item.hasImage_of_prefix (hshown.2 hmode) hlacks)
  · exact absurd (RefreshOptions.mode_of_replaces hreplaces) hmode

theorem persist_shows {I : Item → Prop} (context : String) (update : Update) (hI : I item) :
    Writes (fun e => ∀ i ∈ e.item?, I i) (m.persist context item update) := by
  unfold persist
  refine .bind (.ask (by simpa [Entry.item?, Call.item?] using hI) _) fun answer _ => ?_
  cases answer with
  | ok done => exact .note (by simpa [Entry.item?] using hI)
  | error f => exact .fail _

theorem saveMetadata_shows {I : Item → Prop} (update : Update) (hI : I item) :
    Writes (fun e => ∀ i ∈ e.item?, I i) (m.saveMetadata item update) := by
  unfold saveMetadata
  refine .bind .get fun w _ => .forM (fun s => ?_) _
  unfold Saver.turn
  refine .bind .checkCancelled fun _ _ => ?_
  split
  · refine .bind (.ask ?_ _) fun _ _ => .pure trivial
    simpa [Entry.item?, Call.item?] using hI
  · exact .pure trivial

theorem commit_shows {I : Item → Prop} (update : Update)
    (hI : ∀ moment, I { item with lastRefreshed := moment }) :
    Writes (fun e => ∀ i ∈ e.item?, I i) (m.commit item update) := by
  unfold commit stamp
  refine .bind (Q := I) (.bind .get fun w _ => .pure (hI _)) fun stamped hstamped => ?_
  refine .bind (m.persist_shows _ update hstamped) fun _ _ => ?_
  exact m.saveMetadata_shows update hstamped

/-- What is true of an item with new metadata, and stays true with the images and the time of
the refresh, is true of every item that the refresh shows to anyone. -/
theorem refreshByProviders_shows {I : Item → Prop} (hrevised : ∀ now, item.RevisedTo now → I now)
    (hkept : ∀ now, item.RevisedTo now → m.KeptByImages now options I)
    (hstamped : ∀ i moment, I i → I { i with lastRefreshed := moment }) :
    Writes (fun e => ∀ i ∈ e.item?, I i) (m.refreshByProviders item options) := by
  have hgather : Ensures (Entry.GathersOf I) (fun found => I found.1)
      (m.gather item options) := by
    unfold gather
    refine .bind m.metadataStep_ensures fun found hfound => ?_
    have hI : I found.1 := hrevised _ hfound
    refine .bind (gatherWhen_ensures ?_ hI) fun pictured hpictured => .pure hpictured
    exact m.gatherImages_gathers hI (hkept _ hfound)
  unfold refreshByProviders
  refine .bind (hgather.mono (fun _ he => he.2) fun _ h => h) fun found hfound => ?_
  dsimp only
  split
  · exact .pure trivial
  · refine .bind (m.commit_shows _ fun moment => ?_) fun _ _ => .pure trivial
    exact hstamped _ moment hfound

/-- Every item that a refresh of a locked item shows to anyone is spared. -/
theorem refreshByProviders_spares (hlocked : item.locked = true) :
    Writes (fun e => ∀ i ∈ e.item?, item.SparedIn options.imageMode i)
      (m.refreshByProviders item options) := by
  refine m.refreshByProviders_shows (fun now hrevised => ?_)
    (fun now hrevised => m.sparedIn_kept hlocked hrevised) fun i moment hspared => hspared
  have himages : now.images = item.images := by
    rw [hrevised.1]
    rfl
  exact ⟨hrevised.2 hlocked, fun _ => himages ▸ List.prefix_refl _⟩

/-- A refresh of a locked item is the one without remote and custom providers of metadata
and, unless images are all fetched again, without remote and dynamic providers of images;
every item that it shows still has the metadata and the images that were there.  A refresh
of an owned item is the one without local and remote providers of metadata. -/
theorem locked_and_owned_protected (m : Manager σ) (item : Item) (options : RefreshOptions)
    (w : World σ) :
    (item.locked = true →
      m.refreshByProviders item options w =
          (m.only (fun p => p.source == .disk || p.source == .forced)
            (fun p => p.source == .disk || options.imageMode == .full)).refreshByProviders
              item options w ∧
        ∃ lines, (World.after (m.refreshByProviders item options w)).journal =
            w.journal ++ lines ∧
          ∀ e ∈ lines, ∀ i ∈ e.item?, Retained item i ∧
            (options.imageMode ≠ .full → item.images <+: i.images)) ∧
    (item.isOwned = true →
      m.refreshByProviders item options w =
        (m.only (fun p => p.source == .forced || p.source == .custom)
          fun _ => true).refreshByProviders item options w) := by
  refine ⟨fun hlocked => ⟨?_, ?_⟩, fun howned => ?_⟩
  · refine (m.only_refreshByProviders (fun policy p happlies => ?_)
      (fun other policy p happlies => ?_) w).symm
    · exact p.source_of_locked happlies hlocked
    · by_cases hmode : options.imageMode = .full
      · simp [hmode]
      · simp [p.source_of_locked happlies hlocked hmode]
  · exact (m.refreshByProviders_spares hlocked).adds w
  · refine (m.only_refreshByProviders (fun policy p happlies => ?_) (fun _ _ _ _ => rfl) w).symm
    exact p.source_of_owned happlies howned

open Rehearsal in
/-- A locked film keeps its name although all is to be replaced, and one that another item
controls is refreshed as if neither of the two providers were there. -/
theorem film_protected :
    (∀ e ∈ (World.after ((twoProviders false).refreshByProviders { film with locked := true }
        .full (.fresh emptyStage))).journal, ∀ i ∈ e.item?, i.name = "Alien") ∧
    (twoProviders false).refreshByProviders { film with ownerId := some .zero } .full
        (.fresh emptyStage) =
      ((twoProviders false).only (fun p => p.source == .forced || p.source == .custom)
        fun _ => true).refreshByProviders { film with ownerId := some .zero } .full
          (.fresh emptyStage) := by
  constructor
  · obtain ⟨-, lines, hjournal, hspared⟩ := (locked_and_owned_protected (twoProviders false)
      { film with locked := true } .full (.fresh emptyStage)).1 rfl
    rw [hjournal]
    intro e he i hi
    exact (hspared e he i hi).1 .name (by decide)
  · exact (locked_and_owned_protected (twoProviders false) { film with ownerId := some .zero }
      .full (.fresh emptyStage)).2 rfl

end Manager

end MediaRefresh
