import MediaRefresh.Provider.Registry
import MediaRefresh.Provider.Selection
import MediaRefresh.Text.Cut

/-!
# Search: links to external catalogues
-/

set_option autoImplicit false

namespace MediaRefresh

/-- A link to an item in a catalogue. -/
structure CatalogueLink where
  name : String
  url : String
  deriving DecidableEq, Repr

variable {σ : Type}

namespace ProviderSet

/-- The catalogues that can know an item; one that fails to say counts as one that
cannot. -/
def cataloguesFor (set : ProviderSet σ) (item : Item) : List Catalogue :=
  set.catalogues.filter fun c => agreed (c.supports item)

/-- The links to an item in every catalogue that it has an id for. -/
def links (set : ProviderSet σ) (item : Item) : List CatalogueLink :=
  (set.cataloguesFor item).filterMap fun c => do
    let format ← c.urlFormat
    let id ← item.externalIds.get c.key
    return ⟨c.name, Text.substitute "\x7b0\x7d" id format⟩

end ProviderSet

end MediaRefresh
