import MediaRefresh.Search.Hit
import MediaRefresh.Text.Blank

/-!
# Search: one list from the answers of several providers

Hits are taken in the order of the providers.  A hit that shares an external id
with one already kept is folded into the first such one: the ids it lacks are
copied over, and its image is taken if the kept hit shows none.  One shared id is
enough.
-/

set_option autoImplicit false

namespace MediaRefresh

namespace SearchHit

/-- Whether the hit shows an image: an address that is not blank. -/
def showsImage (h : SearchHit) : Bool := h.imageUrl.any fun u => !Text.blank u

/-- A kept hit after another hit for the same title. -/
def absorb (kept hit : SearchHit) : SearchHit :=
  { kept with
    externalIds := kept.externalIds.mergeMissing hit.externalIds
    imageUrl := if kept.showsImage then kept.imageUrl else hit.imageUrl }

/-- Whether two hits are taken for the same title. -/
def sharesId (kept hit : SearchHit) : Bool := kept.externalIds.sharesAny hit.externalIds

/-- The kept hits after one more. -/
def keep (hit : SearchHit) : List SearchHit → List SearchHit
  | [] => [hit]
  | kept :: rest => if kept.sharesId hit then kept.absorb hit :: rest else kept :: keep hit rest

/-- The hits of a batch, stamped with the provider that found them. -/
def stamped (batch : String × List SearchHit) : List SearchHit :=
  batch.2.map fun h => { h with provider := some batch.1 }

/-- The hits of all batches, one for each title. -/
def merge (batches : List (String × List SearchHit)) : List SearchHit :=
  (batches.flatMap stamped).foldl (fun kept hit => keep hit kept) []

end SearchHit

end MediaRefresh
