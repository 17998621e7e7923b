import MediaRefresh.Error
import MediaRefresh.Image.Remote
import MediaRefresh.Item.Update
import MediaRefresh.Metadata.Lookup
import MediaRefresh.Refresh.Options
import MediaRefresh.Search.Hit

/-!
# Providers: the sources that a refresh consults

A provider is a record of what it does.  A call that may touch the outside world
is a `Reaction`: it sees the state of the outside, of an arbitrary type `σ`, and
whether the refresh has been cancelled, and answers with an outcome and the state
it leaves.  It may also say that the cancellation fired while it ran, or after it
and before the next call.  Questions without effect (`supports`, `handles`,
`accepts`) are plain functions.
-/

set_option autoImplicit false

namespace MediaRefresh

/-- What a call sees of the world around a refresh. -/
structure Surroundings (σ : Type) where
  state : σ
  cancelled : Bool

/-- What a call answers. -/
structure Response (σ α : Type) where
  outcome : Except Failure α
  state : σ
  /-- whether cancellation fired before the next call -/
  fires : Bool

/-- A call to the outside world. -/
abbrev Reaction (σ α : Type) := Surroundings σ → Response σ α

/-! ## Image providers -/

/-- Where an image provider gets its images from. -/
inductive ImageSource where
  /-- next to the media on disk -/
  | disk
  /-- from a remote service -/
  | remote
  /-- generated on demand -/
  | dynamic
  deriving DecidableEq, Repr, Inhabited

namespace ImageSource

/-- Every source, in declaration order. -/
def all : List ImageSource := [disk, remote, dynamic]

/-- The name of a source. -/
def name : ImageSource → String
  | disk => "local"
  | remote => "remote"
  | dynamic => "dynamic"

/-- Reads a source from its name. -/
def decode (d : Dialect) : Decoder ImageSource := Decode.named d all name

end ImageSource

/-- A source of images. -/
structure ImageProvider (σ : Type) where
  /-- matched against configured fetcher lists -/
  name : String
  source : ImageSource
  /-- breaks ties between equally configured providers -/
  order : Int
  /-- whether the provider can supply images for an item -/
  supports : Item → Except Failure Bool
  /-- the image types that it can supply for an item -/
  types : Item → List ImageType
  /-- lists candidates; a provider without this has none -/
  candidates : Option (Item → Reaction σ (List RemoteImage))
  /-- generates an image; a provider without this generates none -/
  generate : Option (Item → ImageType → Reaction σ (Option ImageResponse))
  /-- fetches an image by its address; a provider without this cannot -/
  download : Option (String → Reaction σ ImageResponse)

/-! ## Metadata providers -/

/-- Where a metadata provider gets its metadata from. -/
inductive MetadataSource where
  /-- from files next to the media -/
  | disk
  /-- from a remote service -/
  | remote
  /-- from anywhere, also for locked items -/
  | forced
  /-- from anywhere else -/
  | custom
  deriving DecidableEq, Repr, Inhabited

namespace MetadataSource

/-- Every source, in the order in which a refresh consults them. -/
def all : List MetadataSource := [disk, remote, forced, custom]

/-- The name of a source. -/
def name : MetadataSource → String
  | disk => "local"
  | remote => "remote"
  | forced => "forced"
  | custom => "custom"

/-- Reads a source from its name. -/
def decode (d : Dialect) : Decoder MetadataSource := Decode.named d all name

end MetadataSource

/-- A source of metadata. -/
structure MetadataProvider (σ : Type) where
  /-- matched against configured fetcher and reader lists -/
  name : String
  source : MetadataSource
  /-- breaks ties between equally configured providers -/
  order : Int
  /-- whether the provider has metadata for items of a kind -/
  handles : ItemKind → Bool
  /-- looks an item up -/
  fetch : LookupInfo → Reaction σ MetadataResult
  /-- searches by name, year and ids, for a provider that can -/
  search : Option (LookupInfo → Reaction σ (List SearchHit))

/-! ## Savers, external catalogues and services -/

/-- Persists the metadata of items. -/
structure Saver (σ : Type) where
  name : String
  /-- a saver that is off is dropped at registration -/
  enabled : Bool
  /-- whether the saver wants to persist an item after an update -/
  accepts : Item → Update → Except Failure Bool
  save : Item → Reaction σ Unit

/-- A catalogue under whose ids items are known. -/
structure Catalogue where
  name : String
  /-- the key of its ids -/
  key : String
  /-- an address with `{0}` in the place of the id -/
  urlFormat : Option String
  supports : Item → Except Failure Bool

/-- How the call of a service ends. -/
inductive ServiceOutcome where
  /-- with the changes that it made -/
  | done (update : Update)
  /-- with an error -/
  | failed (e : RefreshError)
  /-- by crashing -/
  | crashed
  deriving DecidableEq, Repr

/-- What a service answers. -/
structure ServiceResponse (σ : Type) where
  outcome : ServiceOutcome
  state : σ
  /-- whether cancellation fired before the answer -/
  fires : Bool

/-- How a service refreshes an item. -/
inductive ServiceWork (σ : Type) where
  /-- by consulting the registered providers -/
  | consult
  /-- in a way of its own, under a name -/
  | own (name : String)
      (refresh : Item → RefreshOptions → Surroundings σ → ServiceResponse σ)

/-- Refreshes items of one or more kinds. -/
structure Service (σ : Type) where
  /-- services are asked in ascending order -/
  order : Int
  /-- whether this is the dedicated service of a kind -/
  dedicatedTo : ItemKind → Bool
  /-- whether the service can refresh an item at all -/
  canRefresh : Item → Bool
  work : ServiceWork σ

namespace Service

/-- The place of a service that any other goes before. -/
def lastOrder : Int := 2147483647

/-- The dedicated service of some kinds. -/
def dedicated {σ : Type} (kinds : List ItemKind) : Service σ where
  order := 0
  dedicatedTo := kinds.contains
  canRefresh := fun item => kinds.isEmpty || kinds.contains item.kind
  work := .consult

/-- The service of every item that no dedicated one claims. -/
def generic {σ : Type} : Service σ := { dedicated [] with order := lastOrder }

end Service

end MediaRefresh
