import MediaRefresh.Item.Basic

/-!
# Metadata: what providers are told and what they answer

`LookupInfo` identifies an item to a provider, `MetadataResult` is what one
provider knows about it.
-/

set_option autoImplicit false

namespace MediaRefresh

open Calendar Numeric

/-- What a provider needs to know to look an item up. -/
structure LookupInfo where
  name : String
  year : Option Int
  path : Option String
  externalIds : ExternalIds
  language : Option String
  country : Option String
  automated : Bool
  deriving DecidableEq, Repr, Inhabited

namespace LookupInfo

/-- The lookup of a live item, with its own language and country. -/
def ofItem (item : Item) : LookupInfo where
  name := item.name
  year := item.productionYear
  path := item.path
  externalIds := item.externalIds
  language := item.preferredLanguage
  country := item.preferredCountry
  automated := false

/-- The fields of the written form, in order. -/
def names : List String :=
  ["name", "year", "path", "provider_ids", "metadata_language", "metadata_country_code",
   "is_automated"]

/-- The written form of a lookup. -/
def form (i : LookupInfo) : Form :=
  .record
    [Form.text "name" i.name,
     Form.optional "year" .integer i.year,
     Form.optional "path" .text i.path,
     Form.always "provider_ids" (.leaf i.externalIds.toValue),
     Form.optional "metadata_language" .text i.language,
     Form.optional "metadata_country_code" .text i.country,
     Form.flag "is_automated" i.automated]

/-- The lookup as a document. -/
def toValue (i : LookupInfo) : Value := i.form.value

/-- Reads a lookup. -/
def decode (d : Dialect) : Decoder LookupInfo := fun v => do
  let fs ← Fields.of? d names v
  return {
    name := ← fs.required "name" Decode.text
    year := ← fs.optional "year" Decode.int32
    path := ← fs.optional "path" Decode.text
    externalIds := ← fs.required "provider_ids" ExternalIds.decode
    language := ← fs.optional "metadata_language" Decode.text
    country := ← fs.optional "metadata_country_code" Decode.text
    automated := ← fs.required "is_automated" Decode.bool }

end LookupInfo

/-- The metadata that one provider has for an item. -/
structure MetadataResult where
  name : Option String
  overview : Option String
  productionYear : Option Int
  premiereDate : Option Date
  genres : List String
  communityRating : Option Binary32
  externalIds : ExternalIds
  deriving DecidableEq, Repr, Inhabited

namespace MetadataResult

/-- The result of a provider that found nothing. -/
def empty : MetadataResult := ⟨none, none, none, none, [], none, .empty⟩

/-- Whether the provider found anything at all. -/
def hasMetadata (r : MetadataResult) : Bool :=
  r.name.isSome || r.overview.isSome || r.productionYear.isSome || r.premiereDate.isSome ||
    !r.genres.isEmpty || r.communityRating.isSome || !r.externalIds.isEmpty

@[simp] theorem hasMetadata_empty : empty.hasMetadata = false := rfl

/-- The fields of the written form, in order. -/
def names : List String :=
  ["name", "overview", "production_year", "premiere_date", "genres", "community_rating",
   "provider_ids"]

/-- The written form of a result. -/
def form (r : MetadataResult) : Form :=
  .record
    [Form.optional "name" .text r.name,
     Form.optional "overview" .text r.overview,
     Form.optional "production_year" .integer r.productionYear,
     Form.optional "premiere_date" Date.toValue r.premiereDate,
     Form.always "genres" (Form.texts r.genres),
     Form.optional "community_rating" (fun x => .real (x.convert .double)) r.communityRating,
     Form.always "provider_ids" (.leaf r.externalIds.toValue)]

/-- The result as a document. -/
def toValue (r : MetadataResult) : Value := r.form.value

/-- Reads a result. -/
def decode (d : Dialect) : Decoder MetadataResult := fun v => do
  let fs ← Fields.of? d names v
  return {
    name := ← fs.optional "name" Decode.text
    overview := ← fs.optional "overview" Decode.text
    productionYear := ← fs.optional "production_year" Decode.int32
    premiereDate := ← fs.optional "premiere_date" Date.decode
    genres := ← fs.required "genres" Decode.texts
    communityRating := ← fs.optional "community_rating" (Decode.number .single)
    externalIds := ← fs.required "provider_ids" ExternalIds.decode }

end MetadataResult

end MediaRefresh
