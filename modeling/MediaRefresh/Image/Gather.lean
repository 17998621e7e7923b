import MediaRefresh.Image.MediaType
import MediaRefresh.Image.Order
import MediaRefresh.Refresh.World

/-!
# Images: filling in what an item lacks

The selected providers are asked in order, each for the types that the item lacks
or that are to be replaced and that no earlier provider of the same refresh has
filled.  Local providers name files, dynamic ones generate images, remote ones
offer candidates of which the best is downloaded.  A provider may fail after it
has supplied some images: those stay on the item, but they do not count as filled
and do not make the refresh report a change.
-/

set_option autoImplicit false

namespace MediaRefresh

variable {σ : Type}

/-- What one provider supplied. -/
structure Supply where
  /-- the images put on the item, in order -/
  recorded : List ItemImage
  /-- the types that they were asked for -/
  types : List ImageType
  /-- why the provider stopped early, if it did -/
  failure : Option Failure

namespace Supply

/-- Nothing yet. -/
def none : Supply := ⟨[], [], .none⟩

/-- Adds an image that was asked for as `t`. -/
def add (s : Supply) (t : ImageType) (image : ItemImage) : Supply :=
  { s with recorded := s.recorded ++ [image], types := s.types ++ [t] }

/-- Stops with a failure. -/
def stop (s : Supply) (f : Failure) : Supply := { s with failure := some f }

/-- An item with the supplied images. -/
def onto (s : Supply) (item : Item) : Item := s.recorded.foldl Item.setImage item

end Supply

namespace ImageProvider

/-- The candidates of a provider, none for one that lists none. -/
def listCandidates (p : ImageProvider σ) (item : Item) :
    RefreshM σ (Except Failure (List RemoteImage)) :=
  match p.candidates with
  | some list => RefreshM.ask (.listImages p.name item) (list item)
  | none => pure (.ok [])

/-- An image that the provider generates, none for one that generates none. -/
def generateImage (p : ImageProvider σ) (item : Item) (t : ImageType) :
    RefreshM σ (Except Failure (Option ImageResponse)) :=
  match p.generate with
  | some make => RefreshM.ask (.generateImage p.name item t) (make item t)
  | none => pure (.ok none)

/-- The image at an address; a provider without downloads fails. -/
def downloadImage (p : ImageProvider σ) (url : String) :
    RefreshM σ (Except Failure ImageResponse) :=
  match p.download with
  | some load => RefreshM.ask (.downloadImage p.name url) (load url)
  | none => pure (.error (.of (p.name ++ " cannot fetch images by url (" ++ url ++ ")")))

/-- The first file of each wanted type. -/
def chooseFiles (wanted : List ImageType) (images : List RemoteImage) : Supply :=
  images.foldl (fun s i =>
    if wanted.contains i.imageType && !s.types.contains i.imageType then
      s.add i.imageType ⟨i.url, i.imageType, i.width, i.height⟩
    else s) .none

/-- What a local provider supplies. -/
def supplyFiles (p : ImageProvider σ) (item : Item) (wanted : List ImageType) :
    RefreshM σ Supply := do
  match ← p.listCandidates item with
  | .ok images => return chooseFiles wanted images
  | .error f => return Supply.none.stop f

end ImageProvider

namespace Manager

/-- Stores an image. -/
def storeImage (m : Manager σ) (item : Item) (t : ImageType) (mediaType data : String) :
    RefreshM σ (Except Failure ItemImage) :=
  RefreshM.ask (.saveImage item t mediaType data) (m.host.saveImage item t mediaType data)

/-- What a dynamic provider supplies; the first failure ends it. -/
def supplyGenerated (m : Manager σ) (p : ImageProvider σ) (item : Item) :
    List ImageType → Supply → RefreshM σ Supply
  | [], s => pure s
  | t :: rest, s => do
    match ← p.generateImage (s.onto item) t with
    | .error f => return s.stop f
    | .ok none => m.supplyGenerated p item rest s
    | .ok (some response) =>
      let mediaType := response.contentType.getD "image/png"
      match ← m.storeImage (s.onto item) t mediaType response.data with
      | .error f => return s.stop f
      | .ok image => m.supplyGenerated p item rest (s.add t image)

/-- A stored image with the size of its candidate where its own is unknown. -/
def sized (image : ItemImage) (candidate : RemoteImage) : ItemImage :=
  { image with
    width := image.width.or candidate.width
    height := image.height.or candidate.height }

/-- What a remote provider supplies of its candidates.  A type whose download
fails or is no image is passed over; a failure to store ends it. -/
def supplyDownloads (m : Manager σ) (p : ImageProvider σ) (language : String)
    (candidates : List RemoteImage) (item : Item) :
    List ImageType → Supply → RefreshM σ Supply
  | [], s => pure s
  | t :: rest, s =>
    match RemoteImage.best? language t candidates with
    | none => m.supplyDownloads p language candidates item rest s
    | some best => do
      match ← p.downloadImage best.url with
      | .error _ => m.supplyDownloads p language candidates item rest s
      | .ok response =>
        match MediaType.validate best.url response.contentType with
        | .error _ => m.supplyDownloads p language candidates item rest s
        | .ok mediaType =>
          match ← m.storeImage (s.onto item) t mediaType response.data with
          | .error f => return s.stop f
          | .ok image =>
            m.supplyDownloads p language candidates item rest (s.add t (sized image best))

/-- What a provider supplies of the wanted types. -/
def supply (m : Manager σ) (p : ImageProvider σ) (language : String) (item : Item)
    (wanted : List ImageType) : RefreshM σ Supply :=
  match p.source with
  | .disk => p.supplyFiles item wanted
  | .dynamic => m.supplyGenerated p item wanted .none
  | .remote => do
    match ← p.listCandidates item with
    | .ok candidates => m.supplyDownloads p language candidates item wanted .none
    | .error f => return Supply.none.stop f

end Manager

/-- The images gathered for an item. -/
structure ImageGathering where
  /-- the item before the first provider -/
  origin : Item
  /-- the images put on it, in order -/
  recorded : List ItemImage
  /-- the types that count as filled -/
  filled : List ImageType

namespace ImageGathering

/-- The item with the images put on it so far. -/
def item (g : ImageGathering) : Item := g.recorded.foldl Item.setImage g.origin

/-- Whether a type is asked for. -/
def wants (g : ImageGathering) (options : RefreshOptions) (t : ImageType) : Bool :=
  !g.filled.contains t && (!g.item.hasImage t || options.replaces t)

/-- Takes up what a provider supplied. -/
def take (g : ImageGathering) (s : Supply) : ImageGathering :=
  { g with
    recorded := g.recorded ++ s.recorded
    filled := if s.failure.isSome then g.filled else g.filled ++ s.types }

/-- What is reported: a change when a provider that did not fail filled a type. -/
def update (g : ImageGathering) : Update :=
  if g.filled.isEmpty then .empty else .only .imageUpdate

end ImageGathering

namespace Manager

/-- Asks one provider. -/
def consultImages (m : Manager σ) (options : RefreshOptions) (language : String)
    (g : ImageGathering) (p : ImageProvider σ) : RefreshM σ ImageGathering := do
  RefreshM.checkCancelled
  let wanted := (p.types g.item).filter (g.wants options)
  if wanted.isEmpty then return g
  else
    let s ← m.supply p language g.item wanted
    if s.failure.isSome then RefreshM.checkCancelled
    return g.take s

/-- The item with the images that it lacked, and what changed. -/
def gatherImages (m : Manager σ) (item : Item) (options : RefreshOptions) :
    RefreshM σ (Item × Update) := do
  let providers := m.imageProviders (← get).state item options.imageMode false
  let g ← providers.foldlM (m.consultImages options (m.language item)) ⟨item, [], []⟩
  return (g.item, g.update)

end Manager

end MediaRefresh
