import MediaRefresh.Refresh.World
import MediaRefresh.Search.Merge

/-!
# Search: asking the providers

A search asks every selected metadata provider that can search.  Each is told a
language and a country, the query's own or the configured ones.  A provider that
fails contributes nothing; a search that has been cancelled by its end fails.
-/

set_option autoImplicit false

namespace MediaRefresh

variable {σ : Type}

namespace Manager

/-- What the providers are told in a search. -/
def searchInfo (m : Manager σ) (info : LookupInfo) : LookupInfo :=
  { info with
    language := some (nonBlank info.language m.config.metadata.language)
    country := some (nonBlank info.country m.config.metadata.country) }

/-- The item that decides which providers apply, with its library's options: the
live item of the query, or a placeholder in a standard library. -/
def searchReference (m : Manager σ) (state : σ) (query : SearchQuery) : Item × LibraryOptions :=
  match query.itemId.bind (m.host.item? state) with
  | some item => (item, m.host.libraryOptions state item)
  | none => (m.placeholder query.kind, .standard)

/-- A provider's name with its way to search. -/
abbrev Searcher (σ : Type) := String × (LookupInfo → Reaction σ (List SearchHit))

/-- The providers that a search asks, in order. -/
def searchers (m : Manager σ) (state : σ) (query : SearchQuery) : List (Searcher σ) :=
  let (item, library) := m.searchReference state query
  ((m.metadataProviders item library query.includeDisabled false).filterMap fun p =>
    p.search.map fun search => (p.name, search)).filter fun s =>
      query.provider.all fun name => Text.same s.1 name

/-- Asks the providers and keeps the answers of those that did not fail.  They are asked
together, and their answers are put in the order of the list.  A call is one step here, so that
the calls stand in that order as well. -/
def searchEach (info : LookupInfo) :
    List (Searcher σ) → RefreshM σ (List (String × List SearchHit))
  | [] => pure []
  | s :: rest => do
    match ← RefreshM.ask (.search s.1 info) (s.2 info) with
    | .ok hits => return (s.1, hits) :: (← searchEach info rest)
    | .error _ => searchEach info rest

/-- Searches for a title. -/
def search (m : Manager σ) (query : SearchQuery) : RefreshM σ (List SearchHit) := do
  let batches ← searchEach (m.searchInfo query.info) (m.searchers (← get).state query)
  RefreshM.checkCancelled
  return SearchHit.merge batches

end Manager

end MediaRefresh
