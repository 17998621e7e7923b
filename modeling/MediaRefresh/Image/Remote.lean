import MediaRefresh.Item.Basic

/-!
# Images: candidates that providers offer
-/

set_option autoImplicit false

namespace MediaRefresh

open Numeric

/-- An image that a provider can supply. -/
structure RemoteImage where
  provider : String
  /-- a remote address, or a path for local providers -/
  url : String
  thumbnailUrl : Option String
  imageType : ImageType
  /-- the language of text in the image -/
  language : Option String
  width : Option Nat
  height : Option Nat
  communityRating : Option Binary64
  votes : Option Nat
  deriving DecidableEq, Repr, Inhabited

namespace RemoteImage

/-- The fields of the written form, in order. -/
def names : List String :=
  ["provider_name", "url", "thumbnail_url", "image_type", "language", "width", "height",
   "community_rating", "vote_count"]

/-- The written form of a candidate. -/
def form (i : RemoteImage) : Form :=
  .record
    [Form.text "provider_name" i.provider,
     Form.text "url" i.url,
     Form.optional "thumbnail_url" .text i.thumbnailUrl,
     Form.always "image_type" (.leaf i.imageType.toValue),
     Form.optional "language" .text i.language,
     Form.optional "width" (fun n => .integer (n : Nat)) i.width,
     Form.optional "height" (fun n => .integer (n : Nat)) i.height,
     Form.optional "community_rating" .real i.communityRating,
     Form.optional "vote_count" (fun n => .integer (n : Nat)) i.votes]

/-- Reads a candidate. -/
def decode (d : Dialect) : Decoder RemoteImage := fun v => do
  let fs ← Fields.of? d names v
  return {
    provider := ← fs.required "provider_name" Decode.text
    url := ← fs.required "url" Decode.text
    thumbnailUrl := ← fs.optional "thumbnail_url" Decode.text
    imageType := ← fs.required "image_type" (ImageType.decode d)
    language := ← fs.optional "language" Decode.text
    width := ← fs.optional "width" Decode.nat32
    height := ← fs.optional "height" Decode.nat32
    communityRating := ← fs.optional "community_rating" Decode.double
    votes := ← fs.optional "vote_count" Decode.nat32 }

end RemoteImage

/-- Which candidates are asked for. -/
structure RemoteImageQuery where
  /-- ask only this provider -/
  provider : Option String
  /-- only images of this type -/
  imageType : Option ImageType
  /-- keep images in every language -/
  allLanguages : Bool
  deriving DecidableEq, Repr, Inhabited

namespace RemoteImageQuery

/-- The fields of the written form, in order. -/
def names : List String := ["provider_name", "image_type", "include_all_languages"]

/-- The written form of a query. -/
def form (q : RemoteImageQuery) : Form :=
  .record
    [Form.optional "provider_name" .text q.provider,
     Form.optional "image_type" ImageType.toValue q.imageType,
     Form.flag "include_all_languages" q.allLanguages]

/-- Reads a query. -/
def decode (d : Dialect) : Decoder RemoteImageQuery := fun v => do
  let fs ← Fields.of? d names v
  return {
    provider := ← fs.optional "provider_name" Decode.text
    imageType := ← fs.optional "image_type" (ImageType.decode d)
    allLanguages := ← fs.required "include_all_languages" Decode.bool }

end RemoteImageQuery

/-- The bytes of an image as a transport returned them, here as the text that
they encode. -/
structure ImageResponse where
  contentType : Option String
  data : String
  deriving DecidableEq, Repr, Inhabited

end MediaRefresh
