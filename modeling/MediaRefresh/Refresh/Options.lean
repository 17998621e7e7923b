import MediaRefresh.Image.Type
import MediaRefresh.Value.Decode
import MediaRefresh.Value.Form

/-!
# Refresh: options

How deep a single refresh goes, for metadata and for images.
-/

set_option autoImplicit false

namespace MediaRefresh

/-- How deep a refresh of metadata or of images goes. -/
inductive RefreshMode where
  /-- nothing is touched -/
  | skip
  /-- only what is recorded is checked -/
  | validationOnly
  /-- what is missing is filled in -/
  | standard
  /-- everything is fetched again -/
  | full
  deriving DecidableEq, Repr, Inhabited

namespace RefreshMode

/-- Every mode, from the shallowest to the deepest. -/
def all : List RefreshMode := [skip, validationOnly, standard, full]

theorem mem_all (m : RefreshMode) : m ∈ all := by cases m <;> decide

/-- The name of a mode. -/
def name : RefreshMode → String
  | skip => "none"
  | validationOnly => "validation_only"
  | standard => "default"
  | full => "full_refresh"

/-- Whether providers are asked at all. -/
def fetches : RefreshMode → Bool
  | standard | full => true
  | skip | validationOnly => false

/-- A mode written as its name. -/
def toValue (m : RefreshMode) : Value := .text m.name

/-- Reads a mode from its name. -/
def decode (d : Dialect) : Decoder RefreshMode := Decode.named d all name

end RefreshMode

/-- How urgent a queued refresh is. -/
inductive Priority where
  | high
  | normal
  | low
  deriving DecidableEq, Repr, Inhabited

namespace Priority

/-- Every priority, the most urgent first. -/
def all : List Priority := [high, normal, low]

theorem mem_all (p : Priority) : p ∈ all := by cases p <;> decide

/-- The place of a priority; a smaller one is served first. -/
def rank : Priority → Nat
  | high => 0
  | normal => 1
  | low => 2

/-- The name of a priority. -/
def name : Priority → String
  | high => "high"
  | normal => "normal"
  | low => "low"

/-- A priority written as its name. -/
def toValue (p : Priority) : Value := .text p.name

/-- Reads a priority from its name. -/
def decode (d : Dialect) : Decoder Priority := Decode.named d all name

end Priority

/-- What a refresh is asked to do. -/
structure RefreshOptions where
  metadataMode : RefreshMode
  imageMode : RefreshMode
  /-- overwrite fields that already have values -/
  replaceMetadata : Bool
  /-- replace every image, not only missing ones -/
  replaceImages : Bool
  /-- replace only images of these types -/
  replaceTypes : List ImageType
  /-- persist the item even if nothing changed -/
  forceSave : Bool
  /-- started by a schedule rather than by a person -/
  automated : Bool
  deriving DecidableEq, Repr

namespace RefreshOptions

/-- Fill in what is missing. -/
def standard : RefreshOptions := ⟨.standard, .standard, false, false, [], false, false⟩

instance : Inhabited RefreshOptions := ⟨standard⟩

/-- Fetch everything again and replace existing values. -/
def full : RefreshOptions :=
  { standard with
    metadataMode := .full, imageMode := .full, replaceMetadata := true, replaceImages := true }

/-- Only validate what is recorded. -/
def validation : RefreshOptions :=
  { standard with metadataMode := .validationOnly, imageMode := .validationOnly }

/-- Whether an image of a type that the item has already is to be replaced. -/
def replaces (o : RefreshOptions) (t : ImageType) : Bool :=
  o.imageMode == .full && (o.replaceImages || o.replaceTypes.contains t)

/-- The fields of the written form, in order. -/
def names : List String :=
  ["metadata_refresh_mode", "image_refresh_mode", "replace_all_metadata", "replace_all_images",
   "replace_image_types", "force_save", "is_automated"]

/-- The written form; every field may be left out when it is as in `standard`. -/
def form (o : RefreshOptions) : Form :=
  .record
    [Form.defaulted "metadata_refresh_mode" (o.metadataMode == .standard)
       (.leaf o.metadataMode.toValue),
     Form.defaulted "image_refresh_mode" (o.imageMode == .standard) (.leaf o.imageMode.toValue),
     Form.defaulted "replace_all_metadata" (!o.replaceMetadata) (.leaf (.bool o.replaceMetadata)),
     Form.defaulted "replace_all_images" (!o.replaceImages) (.leaf (.bool o.replaceImages)),
     Form.defaulted "replace_image_types" o.replaceTypes.isEmpty
       (.leaf (.list (o.replaceTypes.map ImageType.toValue))),
     Form.defaulted "force_save" (!o.forceSave) (.leaf (.bool o.forceSave)),
     Form.defaulted "is_automated" (!o.automated) (.leaf (.bool o.automated))]

/-- The options as a document. -/
def toValue (o : RefreshOptions) : Value := o.form.value

/-- Reads options; a field that is missing is as in `standard`. -/
def decode (d : Dialect) : Decoder RefreshOptions := fun v => do
  let fs ← Fields.of? d names v
  return {
    metadataMode := ← fs.defaulted "metadata_refresh_mode" .standard (RefreshMode.decode d)
    imageMode := ← fs.defaulted "image_refresh_mode" .standard (RefreshMode.decode d)
    replaceMetadata := ← fs.defaulted "replace_all_metadata" false Decode.bool
    replaceImages := ← fs.defaulted "replace_all_images" false Decode.bool
    replaceTypes := ← fs.defaulted "replace_image_types" [] (Decode.list (ImageType.decode d))
    forceSave := ← fs.defaulted "force_save" false Decode.bool
    automated := ← fs.defaulted "is_automated" false Decode.bool }

end RefreshOptions

end MediaRefresh
