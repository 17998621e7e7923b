import MediaRefresh.Metadata.Lookup

/-!
# Search: queries and hits
-/

set_option autoImplicit false

namespace MediaRefresh

open Calendar

/-- One title that a remote search found. -/
structure SearchHit where
  name : String
  productionYear : Option Int
  premiereDate : Option Date
  overview : Option String
  /-- the address of an image that shows the title -/
  imageUrl : Option String
  /-- ids under which the title is known -/
  externalIds : ExternalIds
  /-- the provider that found it -/
  provider : Option String
  deriving DecidableEq, Repr, Inhabited

namespace SearchHit

/-- The fields of the written form, in order. -/
def names : List String :=
  ["name", "production_year", "premiere_date", "overview", "image_url", "provider_ids",
   "search_provider_name"]

/-- The written form of a hit. -/
def form (h : SearchHit) : Form :=
  .record
    [Form.text "name" h.name,
     Form.optional "production_year" .integer h.productionYear,
     Form.optional "premiere_date" Date.toValue h.premiereDate,
     Form.optional "overview" .text h.overview,
     Form.optional "image_url" .text h.imageUrl,
     Form.always "provider_ids" (.leaf h.externalIds.toValue),
     Form.optional "search_provider_name" .text h.provider]

/-- The hit as a document. -/
def toValue (h : SearchHit) : Value := h.form.value

/-- Reads a hit. -/
def decode (d : Dialect) : Decoder SearchHit := fun v => do
  let fs ← Fields.of? d names v
  return {
    name := ← fs.required "name" Decode.text
    productionYear := ← fs.optional "production_year" Decode.int32
    premiereDate := ← fs.optional "premiere_date" Date.decode
    overview := ← fs.optional "overview" Decode.text
    imageUrl := ← fs.optional "image_url" Decode.text
    externalIds := ← fs.required "provider_ids" ExternalIds.decode
    provider := ← fs.optional "search_provider_name" Decode.text }

end SearchHit

/-- A remote search. -/
structure SearchQuery where
  /-- the item that is searched for; a new item has none -/
  itemId : Option ItemId
  kind : ItemKind
  info : LookupInfo
  /-- ask only this provider -/
  provider : Option String
  includeDisabled : Bool
  deriving DecidableEq, Repr, Inhabited

namespace SearchQuery

/-- The fields of the written form, in order. -/
def names : List String :=
  ["item_id", "kind", "search_info", "search_provider_name", "include_disabled_providers"]

/-- The written form of a query. -/
def form (q : SearchQuery) : Form :=
  .record
    [Form.optional "item_id" ItemId.toValue q.itemId,
     Form.always "kind" (.leaf q.kind.toValue),
     Form.always "search_info" q.info.form,
     Form.optional "search_provider_name" .text q.provider,
     Form.flag "include_disabled_providers" q.includeDisabled]

/-- Reads a query. -/
def decode (d : Dialect) : Decoder SearchQuery := fun v => do
  let fs ← Fields.of? d names v
  return {
    itemId := ← fs.optional "item_id" ItemId.decode
    kind := ← fs.required "kind" (ItemKind.decode d)
    info := ← fs.required "search_info" (LookupInfo.decode d)
    provider := ← fs.optional "search_provider_name" Decode.text
    includeDisabled := ← fs.required "include_disabled_providers" Decode.bool }

end SearchQuery

end MediaRefresh
