import MediaRefresh.Calendar.Instant
import MediaRefresh.Image.Type
import MediaRefresh.Item.ExternalIds
import MediaRefresh.Item.Id
import MediaRefresh.Item.Kind
import MediaRefresh.Value.Form

/-!
# Items: nodes of the media library
-/

set_option autoImplicit false

namespace MediaRefresh

open Calendar Numeric

namespace ItemImage

/-- The fields of the written form, in order. -/
def names : List String := ["path", "image_type", "width", "height"]

/-- The written form of an image. -/
def form (i : ItemImage) : Form :=
  .record
    [Form.text "path" i.path,
     Form.always "image_type" (.leaf i.imageType.toValue),
     Form.optional "width" (fun n => .integer (n : Nat)) i.width,
     Form.optional "height" (fun n => .integer (n : Nat)) i.height]

/-- Reads an image. -/
def decode (d : Dialect) : Decoder ItemImage := fun v => do
  let fs ← Fields.of? d names v
  return {
    path := ← fs.required "path" Decode.text
    imageType := ← fs.required "image_type" (ImageType.decode d)
    width := ← fs.optional "width" Decode.nat32
    height := ← fs.optional "height" Decode.nat32 }

end ItemImage

/-- A node of the media library. -/
structure Item where
  id : ItemId
  kind : ItemKind
  name : String
  /-- the place on disk; people, studios and the like have none -/
  path : Option String
  parentId : Option ItemId
  /-- set for sub-items whose metadata another item controls -/
  ownerId : Option ItemId
  /-- locked items are refreshed from local sources only -/
  locked : Bool
  externalIds : ExternalIds
  productionYear : Option Int
  premiereDate : Option Date
  overview : Option String
  genres : List String
  communityRating : Option Binary32
  images : List ItemImage
  preferredLanguage : Option String
  preferredCountry : Option String
  /-- for albums, the artist grouping that the album is filed under -/
  artistId : Option ItemId
  lastRefreshed : Option Instant
  deriving DecidableEq, Repr, Inhabited

namespace Item

/-- A bare item. -/
def bare (id : ItemId) (kind : ItemKind) (name : String) : Item where
  id := id
  kind := kind
  name := name
  path := none
  parentId := none
  ownerId := none
  locked := false
  externalIds := .empty
  productionYear := none
  premiereDate := none
  overview := none
  genres := []
  communityRating := none
  images := []
  preferredLanguage := none
  preferredCountry := none
  artistId := none
  lastRefreshed := none

/-- The item at a place on disk. -/
def withPath (item : Item) (path : String) : Item := { item with path := some path }

/-- The item under a parent. -/
def withParent (item : Item) (parent : ItemId) : Item := { item with parentId := some parent }

/-- Whether the item holds children that can be validated. -/
def isFolder (item : Item) : Bool := item.kind.isFolder

/-- Whether another item controls the item's metadata. -/
def isOwned (item : Item) : Bool := item.ownerId.isSome

/-- Whether metadata files can stand next to the item. -/
def supportsLocalMetadata (item : Item) : Bool := item.path.isSome

/-- Whether an image of the type is recorded. -/
def hasImage (item : Item) (t : ImageType) : Bool := item.images.any (·.imageType == t)

/-- Records an image in place of the images of its type. -/
def setImage (item : Item) (image : ItemImage) : Item :=
  { item with images := item.images.filter (·.imageType != image.imageType) ++ [image] }

/-- The images of a type, in order. -/
def imagesOf (item : Item) (t : ImageType) : List ItemImage :=
  item.images.filter (·.imageType == t)

/-- The fields of the written form, in order. -/
def names : List String :=
  ["id", "kind", "name", "path", "parent_id", "owner_id", "is_locked", "provider_ids",
   "production_year", "premiere_date", "overview", "genres", "community_rating", "images",
   "preferred_metadata_language", "preferred_metadata_country_code", "music_artist_id",
   "date_last_refreshed"]

/-- The written form of an item. -/
def form (i : Item) : Form :=
  .record
    [Form.always "id" (.leaf i.id.toValue),
     Form.always "kind" (.leaf i.kind.toValue),
     Form.text "name" i.name,
     Form.optional "path" .text i.path,
     Form.optional "parent_id" ItemId.toValue i.parentId,
     Form.optional "owner_id" ItemId.toValue i.ownerId,
     Form.flag "is_locked" i.locked,
     Form.always "provider_ids" (.leaf i.externalIds.toValue),
     Form.optional "production_year" .integer i.productionYear,
     Form.optional "premiere_date" Date.toValue i.premiereDate,
     Form.optional "overview" .text i.overview,
     Form.always "genres" (Form.texts i.genres),
     Form.optional "community_rating" (fun x => .real (x.convert .double)) i.communityRating,
     Form.always "images" (.list (i.images.map ItemImage.form)),
     Form.optional "preferred_metadata_language" .text i.preferredLanguage,
     Form.optional "preferred_metadata_country_code" .text i.preferredCountry,
     Form.optional "music_artist_id" ItemId.toValue i.artistId,
     Form.optional "date_last_refreshed" Instant.toValue i.lastRefreshed]

/-- The item as a document. -/
def toValue (i : Item) : Value := i.form.value

/-- Reads an item. -/
def decode (d : Dialect) : Decoder Item := fun v => do
  let fs ← Fields.of? d names v
  return {
    id := ← fs.required "id" ItemId.decode
    kind := ← fs.required "kind" (ItemKind.decode d)
    name := ← fs.required "name" Decode.text
    path := ← fs.optional "path" Decode.text
    parentId := ← fs.optional "parent_id" ItemId.decode
    ownerId := ← fs.optional "owner_id" ItemId.decode
    locked := ← fs.required "is_locked" Decode.bool
    externalIds := ← fs.required "provider_ids" ExternalIds.decode
    productionYear := ← fs.optional "production_year" Decode.int32
    premiereDate := ← fs.optional "premiere_date" Date.decode
    overview := ← fs.optional "overview" Decode.text
    genres := ← fs.required "genres" Decode.texts
    communityRating := ← fs.optional "community_rating" (Decode.number .single)
    images := ← fs.required "images" (Decode.list (ItemImage.decode d))
    preferredLanguage := ← fs.optional "preferred_metadata_language" Decode.text
    preferredCountry := ← fs.optional "preferred_metadata_country_code" Decode.text
    artistId := ← fs.optional "music_artist_id" ItemId.decode
    lastRefreshed := ← fs.optional "date_last_refreshed" Instant.decode }

end Item

end MediaRefresh
