import MediaRefresh.Proofs.Refresh.Journal

/-!
# Refresh: what gathering asks, and which items it shows

Gathering makes calls that gather, and shows to those whom it asks items of one kind only:
what is true of the item and is kept by every image that a provider may supply is true of
every item that is shown.
-/

set_option autoImplicit false

namespace MediaRefresh

open RefreshM

variable {σ : Type}

/-- A line of a call that gathers and shows no item but those that satisfy `I`. -/
def Entry.GathersOf (I : Item → Prop) (e : Entry) : Prop :=
  e.gathers = true ∧ ∀ i ∈ e.item?, I i

/-- The action makes calls that gather, and the journal tells of nothing else. -/
abbrev RefreshM.OnlyGathers {α : Type} (x : RefreshM σ α) : Prop :=
  RefreshM.Writes (fun e => e.gathers = true) x

variable {I : Item → Prop}

theorem Entry.gathersOf_of_none {e : Entry} (h : e.gathers = true) (hitem : e.item? = none) :
    e.GathersOf I := ⟨h, by simp [hitem]⟩

theorem Entry.gathersOf_of_some {e : Entry} {item : Item} (h : e.gathers = true)
    (hitem : e.item? = some item) (hI : I item) : e.GathersOf I := ⟨h, by simpa [hitem] using hI⟩

/-! ## Metadata -/

theorem MetadataProvider.consult_gathers (p : MetadataProvider σ) (g : Gathering) :
    Writes (Entry.GathersOf I) (p.consult g) := by
  have hcall : (Entry.called (.fetch p.name g.info)).GathersOf I :=
    Entry.gathersOf_of_none rfl rfl
  unfold MetadataProvider.consult
  refine .bind .checkCancelled fun _ _ => .bind (.ask hcall _) fun answer _ => ?_
  cases answer with
  | ok r => exact .pure trivial
  | error f => exact .bind .checkCancelled fun _ _ => .pure trivial

theorem Gathering.consultSource_gathers (providers : List (MetadataProvider σ))
    (options : RefreshOptions) (g : Gathering) (source : MetadataSource) :
    Writes (Entry.GathersOf I) (g.consultSource providers options source) := by
  unfold Gathering.consultSource
  split
  · exact .foldlM (fun g _ p _ => p.consult_gathers g) trivial
  · exact .pure trivial

theorem Manager.gatherMetadata_gathers (m : Manager σ) (item : Item) (options : RefreshOptions) :
    Writes (Entry.GathersOf I) (m.gatherMetadata item options) := by
  unfold gatherMetadata
  refine .bind .get fun w _ => .bind (Q := fun _ => True) ?_ fun g _ => .pure trivial
  exact .foldlM (fun g _ source _ => g.consultSource_gathers _ options source) trivial

/-! ## Images -/

namespace Supply

variable (s : Supply) (item : Item)

theorem onto_add (t : ImageType) (image : ItemImage) :
    (s.add t image).onto item = (s.onto item).setImage image := by
  simp [onto, add]

end Supply

namespace ImageProvider

variable {p : ImageProvider σ} {item : Item} {wanted : List ImageType}

theorem listCandidates_gathers (hI : I item) :
    Writes (Entry.GathersOf I) (p.listCandidates item) := by
  unfold listCandidates
  cases p.candidates with
  | none => exact .pure trivial
  | some list => exact .ask (Entry.gathersOf_of_some rfl rfl hI) _

theorem generateImage_gathers (hI : I item) (t : ImageType) :
    Writes (Entry.GathersOf I) (p.generateImage item t) := by
  unfold generateImage
  cases p.generate with
  | none => exact .pure trivial
  | some make => exact .ask (Entry.gathersOf_of_some rfl rfl hI) _

theorem downloadImage_gathers (url : String) :
    Writes (Entry.GathersOf I) (p.downloadImage url) := by
  unfold downloadImage
  cases p.download with
  | none => exact .pure trivial
  | some load => exact .ask (Entry.gathersOf_of_none rfl rfl) _

/-- A local provider puts only images of the wanted types on an item. -/
theorem chooseFiles_onto (hI : I item)
    (hset : ∀ i image, I i → image.imageType ∈ wanted → I (i.setImage image))
    (images : List RemoteImage) : I ((chooseFiles wanted images).onto item) := by
  refine List.foldlRecOn (motive := fun s : Supply => I (s.onto item)) images _ hI ?_
  intro s hs image _
  split
  · rename_i htaken
    have hwanted : image.imageType ∈ wanted := by simpa using (Bool.and_eq_true_iff.mp htaken).1
    rw [Supply.onto_add]
    exact hset _ _ hs hwanted
  · exact hs

theorem supplyFiles_gathers (hI : I item)
    (hset : ∀ i image, I i → image.imageType ∈ wanted → I (i.setImage image)) :
    Ensures (Entry.GathersOf I) (fun s => I (s.onto item)) (p.supplyFiles item wanted) := by
  unfold supplyFiles
  refine .bind (listCandidates_gathers hI) fun answer _ => ?_
  cases answer with
  | ok images => exact .pure (chooseFiles_onto hI hset images)
  | error f => exact .pure hI

end ImageProvider

namespace Manager

variable (m : Manager σ) {p : ImageProvider σ} {item : Item} {wanted : List ImageType}
  {s : Supply}

theorem storeImage_gathers (hI : I item) (t : ImageType) (mediaType data : String) :
    Writes (Entry.GathersOf I) (m.storeImage item t mediaType data) :=
  .ask (Entry.gathersOf_of_some rfl rfl hI) _

section

variable (hset : ∀ i image, I i → I (i.setImage image)) (hs : I (s.onto item))

include hset hs

/-- By induction on the wanted types.  Each image is stored for the item with those before. -/
theorem supplyGenerated_gathers : Ensures (Entry.GathersOf I) (fun s => I (s.onto item))
    (m.supplyGenerated p item wanted s) := by
  induction wanted generalizing s with
  | nil => exact .pure hs
  | cons t rest ih =>
    unfold supplyGenerated
    refine .bind (ImageProvider.generateImage_gathers hs t) fun answer _ => ?_
    cases answer with
    | error f => exact .pure hs
    | ok made =>
      cases made with
      | none => exact ih hs
      | some response =>
        refine .bind (m.storeImage_gathers hs t _ _) fun stored _ => ?_
        cases stored with
        | error f => exact .pure hs
        | ok image =>
          refine ih ?_
          rw [Supply.onto_add]
          exact hset _ _ hs

theorem supplyDownloads_gathers (language : String) (candidates : List RemoteImage) :
    Ensures (Entry.GathersOf I) (fun s => I (s.onto item))
      (m.supplyDownloads p language candidates item wanted s) := by
  induction wanted generalizing s with
  | nil => exact .pure hs
  | cons t rest ih =>
    unfold supplyDownloads
    cases RemoteImage.best? language t candidates with
    | none => exact ih hs
    | some best =>
      refine .bind (ImageProvider.downloadImage_gathers _) fun answer _ => ?_
      cases answer with
      | error f => exact ih hs
      | ok response =>
        dsimp only
        cases MediaType.validate best.url response.contentType with
        | error e => exact ih hs
        | ok mediaType =>
          refine .bind (m.storeImage_gathers hs t _ _) fun stored _ => ?_
          cases stored with
          | error f => exact .pure hs
          | ok image =>
            refine ih ?_
            rw [Supply.onto_add]
            exact hset _ _ hs

end

theorem supply_gathers (language : String) (hI : I item)
    (hset : ∀ i image, I i → (p.source = .disk → image.imageType ∈ wanted) →
      I (i.setImage image)) :
    Ensures (Entry.GathersOf I) (fun s => I (s.onto item)) (m.supply p language item wanted) := by
  have hnone : I (Supply.none.onto item) := hI
  unfold supply
  cases hsource : p.source with
  | disk =>
    exact ImageProvider.supplyFiles_gathers hI fun i image hi ht => hset i image hi fun _ => ht
  | dynamic =>
    exact m.supplyGenerated_gathers (fun i image hi => hset i image hi (by simp [hsource])) hnone
  | remote =>
    refine .bind (ImageProvider.listCandidates_gathers hI) fun answer _ => ?_
    cases answer with
    | ok candidates =>
      exact m.supplyDownloads_gathers (fun i image hi => hset i image hi (by simp [hsource])) hnone
        language candidates
    | error f => exact .pure hI

/-- What is true of an item stays true with an image of a provider that may be asked.  A
local one supplies only what the item lacks or is to have replaced. -/
def KeptByImages (m : Manager σ) (item : Item) (options : RefreshOptions) (I : Item → Prop) :
    Prop :=
  ∀ state, ∀ p ∈ m.imageProviders state item options.imageMode false, ∀ now i image,
    I now → I i → (p.source = .disk → now.hasImage image.imageType = false ∨
      options.replaces image.imageType = true) → I (i.setImage image)

theorem consultImages_gathers {g : ImageGathering} {options : RefreshOptions} (language : String)
    (hI : I g.item)
    (hset : ∀ i image, I i → (p.source = .disk → g.item.hasImage image.imageType = false ∨
      options.replaces image.imageType = true) → I (i.setImage image)) :
    Ensures (Entry.GathersOf I) (fun g => I g.item) (m.consultImages options language g p) := by
  have hwanted {t : ImageType} (ht : t ∈ (p.types g.item).filter (g.wants options)) :
      g.item.hasImage t = false ∨ options.replaces t = true := by
    have hwants := (Bool.and_eq_true_iff.mp (List.mem_filter.mp ht).2).2
    simpa using hwants
  have htake (s : Supply) : (g.take s).item = s.onto g.item := List.foldl_append
  unfold consultImages
  refine .bind .checkCancelled fun _ _ => ?_
  dsimp only
  split
  · exact .pure hI
  · refine .bind (m.supply_gathers language hI fun i image hi ht => hset i image hi fun hdisk =>
      hwanted (ht hdisk)) fun s hs => ?_
    rw [← htake] at hs
    split
    · exact .bind .checkCancelled fun _ _ => .pure hs
    · exact .pure hs

theorem gatherImages_gathers {options : RefreshOptions} (hI : I item)
    (hkept : m.KeptByImages item options I) :
    Ensures (Entry.GathersOf I) (fun found => I found.1) (m.gatherImages item options) := by
  unfold gatherImages
  refine .bind .get fun w _ => .bind (Q := fun g => I g.item) ?_ fun g hg => .pure hg
  refine .foldlM (fun g hg p hp => m.consultImages_gathers _ hg fun i image hi => ?_) hI
  exact hkept w.state p hp g.item i image hg hi

/-! ## Both -/

theorem gatherWhen_ensures {P : Entry → Prop} {Q : Item → Prop}
    {step : Item → RefreshM σ (Item × Update)} {asked : Bool}
    (hstep : Ensures P (fun found => Q found.1) (step item)) (hsame : Q item) :
    Ensures P (fun found => Q found.1) (gatherWhen asked step item) := by
  unfold gatherWhen
  split
  · exact hstep
  · exact .pure hsame

theorem gather_onlyGathers (item : Item) (options : RefreshOptions) :
    OnlyGathers (m.gather item options) := by
  have honly {α : Type} {Q : α → Prop} {x : RefreshM σ α}
      (hx : Ensures (Entry.GathersOf fun _ => True) Q x) : OnlyGathers x :=
    hx.mono (fun _ he => he.1) fun _ _ => trivial
  unfold gather
  refine .bind (gatherWhen_ensures (Q := fun _ => True)
    (honly (m.gatherMetadata_gathers _ options)) trivial) fun found _ => ?_
  refine .bind (gatherWhen_ensures (Q := fun _ => True) ?_ trivial) fun pictured _ => .pure trivial
  exact honly (m.gatherImages_gathers trivial fun _ _ _ _ _ _ _ _ _ => trivial)

end Manager

end MediaRefresh
