import MediaRefresh.Settings.Library
import MediaRefresh.Text.Blank

/-!
# Settings: the configuration of the server

The configuration holds the default language and country, the global fetcher
settings per kind of item, and the pause between queued refreshes.  `check`
accepts one whose pause is at most a minute, whose kinds are distinct and whose
language is not blank; of several faults the first in that order is reported.
-/

set_option autoImplicit false

namespace MediaRefresh

/-- Global fetcher settings for one kind of item. -/
structure KindOptions where
  kind : ItemKind
  disabledMetadataFetchers : List String
  metadataFetcherOrder : List String
  disabledImageFetchers : List String
  imageFetcherOrder : List String
  readerOrder : List String
  disabledSavers : List String
  deriving DecidableEq, Repr, Inhabited

namespace KindOptions

/-- Nothing disabled and no order. -/
def empty (kind : ItemKind) : KindOptions := ⟨kind, [], [], [], [], [], []⟩

/-- The fields of the written form, in order. -/
def names : List String :=
  ["item_kind", "disabled_metadata_fetchers", "metadata_fetcher_order", "disabled_image_fetchers",
   "image_fetcher_order", "local_metadata_reader_order", "disabled_metadata_savers"]

/-- The written form of the settings. -/
def form (o : KindOptions) : Form :=
  .record
    [Form.always "item_kind" (.leaf o.kind.toValue),
     TypeBlock.listForm "disabled_metadata_fetchers" o.disabledMetadataFetchers,
     TypeBlock.listForm "metadata_fetcher_order" o.metadataFetcherOrder,
     TypeBlock.listForm "disabled_image_fetchers" o.disabledImageFetchers,
     TypeBlock.listForm "image_fetcher_order" o.imageFetcherOrder,
     TypeBlock.listForm "local_metadata_reader_order" o.readerOrder,
     TypeBlock.listForm "disabled_metadata_savers" o.disabledSavers]

/-- The settings as a document. -/
def toValue (o : KindOptions) : Value := o.form.value

/-- Reads the settings for a kind. -/
def decode (d : Dialect) : Decoder KindOptions := fun v => do
  let fs ← Fields.of? d names v
  return {
    kind := ← fs.required "item_kind" (ItemKind.decode d)
    disabledMetadataFetchers := ← fs.defaulted "disabled_metadata_fetchers" [] Decode.texts
    metadataFetcherOrder := ← fs.defaulted "metadata_fetcher_order" [] Decode.texts
    disabledImageFetchers := ← fs.defaulted "disabled_image_fetchers" [] Decode.texts
    imageFetcherOrder := ← fs.defaulted "image_fetcher_order" [] Decode.texts
    readerOrder := ← fs.defaulted "local_metadata_reader_order" [] Decode.texts
    disabledSavers := ← fs.defaulted "disabled_metadata_savers" [] Decode.texts }

end KindOptions

/-- Metadata settings of the server. -/
structure MetadataConfig where
  /-- used when an item sets no language -/
  language : String
  /-- used when an item sets no country -/
  country : String
  /-- the directory of placeholder items -/
  internalPath : String
  kinds : List KindOptions
  deriving DecidableEq, Repr

namespace MetadataConfig

/-- The settings of a server that sets none. -/
def standard : MetadataConfig := ⟨"en", "US", "./metadata", []⟩

instance : Inhabited MetadataConfig := ⟨standard⟩

/-- The settings for a kind, or empty ones. -/
def kindOptions (c : MetadataConfig) (kind : ItemKind) : KindOptions :=
  (c.kinds.find? (·.kind == kind)).getD (.empty kind)

/-- The fields of the written form, in order. -/
def names : List String :=
  ["preferred_language", "country_code", "internal_metadata_path", "type_options"]

/-- A text that may be left out when it is `standard`. -/
def textForm (name standard s : String) : String × Bool × Form :=
  Form.defaulted name (s == standard) (.leaf (.text s))

/-- The written form of the settings. -/
def form (c : MetadataConfig) : Form :=
  .record
    [textForm "preferred_language" "en" c.language,
     textForm "country_code" "US" c.country,
     textForm "internal_metadata_path" "./metadata" c.internalPath,
     Form.defaulted "type_options" c.kinds.isEmpty (.list (c.kinds.map KindOptions.form))]

/-- Reads the settings. -/
def decode (d : Dialect) : Decoder MetadataConfig := fun v => do
  let fs ← Fields.of? d names v
  return {
    language := ← fs.defaulted "preferred_language" "en" Decode.text
    country := ← fs.defaulted "country_code" "US" Decode.text
    internalPath := ← fs.defaulted "internal_metadata_path" "./metadata" Decode.text
    kinds := ← fs.defaulted "type_options" [] (Decode.list (KindOptions.decode d)) }

end MetadataConfig

/-- The configuration of the server. -/
structure Config where
  metadata : MetadataConfig
  /-- the pause before each queued refresh, in milliseconds -/
  throttle : Nat
  deriving DecidableEq, Repr

namespace Config

/-- The pause of a server that sets none. -/
def standardThrottle : Nat := 100

/-- The configuration of a server that sets nothing. -/
def standard : Config := ⟨.standard, standardThrottle⟩

instance : Inhabited Config := ⟨standard⟩

/-- The written form of a configuration. -/
def form (c : Config) : Form :=
  .record
    [Form.defaulted "metadata" (c.metadata == .standard) c.metadata.form,
     Form.defaulted "refresh" (c.throttle == standardThrottle)
       (.record [Form.defaulted "throttle_ms" (c.throttle == standardThrottle)
         (.leaf (.integer c.throttle))])]

/-- The configuration as a document. -/
def toValue (c : Config) : Value := c.form.value

/-- Reads the pause. -/
def decodeThrottle (d : Dialect) : Decoder Nat := fun v => do
  let fs ← Fields.of? d ["throttle_ms"] v
  fs.defaulted "throttle_ms" standardThrottle Decode.nat64

/-- Reads a configuration. -/
def decode (d : Dialect) : Decoder Config := fun v => do
  let fs ← Fields.of? d ["metadata", "refresh"] v
  return {
    metadata := ← fs.defaulted "metadata" .standard (MetadataConfig.decode d)
    throttle := ← fs.defaulted "refresh" standardThrottle (decodeThrottle d) }

end Config

/-- The longest accepted pause between queued refreshes, in milliseconds. -/
def maxThrottle : Nat := 60000

/-- Why a configuration is rejected. -/
inductive ConfigFault where
  /-- the pause is too long -/
  | throttle (given : Nat)
  /-- two blocks are for one kind -/
  | repeatedKind (kind : ItemKind)
  /-- the language is blank -/
  | blankLanguage
  deriving DecidableEq, Repr

namespace ConfigFault

/-- The message of a fault. -/
def message : ConfigFault → String
  | throttle given =>
    "refresh.throttle_ms must be at most " ++ toString maxThrottle ++ " (got " ++
      toString given ++ ")"
  | repeatedKind kind => "metadata.type_options defines '" ++ kind.name ++ "' more than once"
  | blankLanguage => "metadata.preferred_language cannot be empty"

end ConfigFault

/-- The first kind of the list that stands in it before, or in `seen`. -/
def repeatedKind? (seen : List ItemKind) : List ItemKind → Option ItemKind
  | [] => none
  | k :: rest => if k ∈ seen then some k else repeatedKind? (k :: seen) rest

namespace Config

/-- The first fault of a configuration. -/
def fault? (c : Config) : Option ConfigFault :=
  if maxThrottle < c.throttle then some (.throttle c.throttle)
  else match repeatedKind? [] (c.metadata.kinds.map KindOptions.kind) with
    | some k => some (.repeatedKind k)
    | none => if Text.blank c.metadata.language then some .blankLanguage else none

/-- Accepts a configuration without faults. -/
def check (c : Config) : Except ConfigFault Config :=
  match c.fault? with
  | some f => .error f
  | none => .ok c

end Config

end MediaRefresh
