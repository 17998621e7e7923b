import MediaRefresh.Metadata.Lookup
import MediaRefresh.Text.Blank

/-!
# Metadata: folding a result into an item

Empty fields are filled; populated ones are replaced only when `overwrite` is
set.  A blank name and an empty id say nothing.  Beside the item, `applyTo` tells
whether anything changed.
-/

set_option autoImplicit false

namespace MediaRefresh

open Numeric

/-- A field after a result for it, and whether it changed. -/
def mergeField {α : Type} (same : α → α → Bool) (overwrite : Bool) (target source : Option α) :
    Option α × Bool :=
  match source with
  | some v =>
    if (overwrite || target.isNone) && !target.any (same · v) then (some v, true)
    else (target, false)
  | none => (target, false)

/-- A name after a result for it, and whether it changed. -/
def mergeName (overwrite : Bool) (target : String) (source : Option String) : String × Bool :=
  match source with
  | some n =>
    if !Text.blank n && (overwrite || Text.blank target) && target ≠ n then (n, true)
    else (target, false)
  | none => (target, false)

/-- The genres after a result for them, and whether they changed. -/
def mergeGenres (overwrite : Bool) (target source : List String) : List String × Bool :=
  if !source.isEmpty && (overwrite || target.isEmpty) && target ≠ source then (source, true)
  else (target, false)

/-- The external ids after one more id, and whether they changed. -/
def mergeId (overwrite : Bool) (acc : ExternalIds × Bool) (e : String × String) :
    ExternalIds × Bool :=
  if e.2 = "" then acc
  else
    let current := acc.1.get e.1
    if current.isNone || (overwrite && current ≠ some e.2) then (acc.1.set e.1 e.2, true)
    else acc

namespace MetadataResult

/-- An item after a result, and whether anything changed. -/
def applyTo (r : MetadataResult) (overwrite : Bool) (item : Item) : Item × Bool :=
  let name := mergeName overwrite item.name r.name
  let overview := mergeField (· == ·) overwrite item.overview r.overview
  let year := mergeField (· == ·) overwrite item.productionYear r.productionYear
  let date := mergeField (· == ·) overwrite item.premiereDate r.premiereDate
  let rating := mergeField Binary.equal overwrite item.communityRating r.communityRating
  let genres := mergeGenres overwrite item.genres r.genres
  let ids := r.externalIds.entries.foldl (mergeId overwrite) (item.externalIds, false)
  ({ item with
      name := name.1
      overview := overview.1
      productionYear := year.1
      premiereDate := date.1
      communityRating := rating.1
      genres := genres.1
      externalIds := ids.1 },
   name.2 || overview.2 || year.2 || date.2 || rating.2 || genres.2 || ids.2)

end MetadataResult

end MediaRefresh
