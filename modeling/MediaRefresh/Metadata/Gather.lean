import MediaRefresh.Metadata.Apply
import MediaRefresh.Refresh.World

/-!
# Metadata: consulting the selected providers

Providers are asked source by source: local, remote, forced, custom.  The remote
ones are left out when a local one had something, unless everything is to be
fetched.  Only the first provider that has something may overwrite, and the ids
that are found go into the later lookups.  A provider that fails is passed over.
-/

set_option autoImplicit false

namespace MediaRefresh

/-- What has been gathered for an item. -/
structure Gathering where
  item : Item
  /-- what the next provider is told -/
  info : LookupInfo
  update : Update
  /-- whether the next result may overwrite -/
  overwrite : Bool
  /-- whether a local provider had something -/
  foundLocal : Bool

namespace Gathering

/-- Takes up a result from a source. -/
def take (g : Gathering) (source : MetadataSource) (r : MetadataResult) : Gathering :=
  if r.hasMetadata then
    let (item, changed) := r.applyTo g.overwrite g.item
    { item := item
      info := { g.info with externalIds := g.info.externalIds.mergeMissing r.externalIds }
      overwrite := false
      foundLocal := g.foundLocal || source == .disk
      update :=
        match source with
        | .disk => g.update.add .metadataImport
        | .remote => if changed then g.update.add .metadataDownload else g.update
        | _ => if changed then g.update.add .metadataImport else g.update }
  else g

/-- Whether the providers of a source are asked at this point. -/
def consults (g : Gathering) (options : RefreshOptions) (source : MetadataSource) : Bool :=
  source != .remote || !g.foundLocal || options.metadataMode == .full || options.replaceMetadata

end Gathering

variable {σ : Type}

/-- Asks one provider. -/
def MetadataProvider.consult (p : MetadataProvider σ) (g : Gathering) : RefreshM σ Gathering := do
  RefreshM.checkCancelled
  match ← RefreshM.ask (.fetch p.name g.info) (p.fetch g.info) with
  | .ok r => return g.take p.source r
  | .error _ =>
    RefreshM.checkCancelled
    return g

namespace Gathering

/-- Asks the providers of one source. -/
def consultSource (providers : List (MetadataProvider σ)) (options : RefreshOptions)
    (g : Gathering) (source : MetadataSource) : RefreshM σ Gathering :=
  if g.consults options source then
    (providers.filter (·.source == source)).foldlM (fun g p => p.consult g) g
  else pure g

end Gathering

namespace Manager

/-- The lookup of an item in a refresh: always with a language and a country. -/
def lookup (m : Manager σ) (item : Item) (options : RefreshOptions) : LookupInfo :=
  { LookupInfo.ofItem item with
    language := some (m.language item)
    country := some (m.country item)
    automated := options.automated }

/-- What is known before the first provider is asked. -/
def gathering (m : Manager σ) (item : Item) (options : RefreshOptions) : Gathering where
  item := item
  info := m.lookup item options
  update := .empty
  overwrite := options.replaceMetadata && !item.locked
  foundLocal := false

/-- The item as the selected providers know it, and what changed. -/
def gatherMetadata (m : Manager σ) (item : Item) (options : RefreshOptions) :
    RefreshM σ (Item × Update) := do
  let library := m.host.libraryOptions (← get).state item
  let providers := m.metadataProviders item library false false
  let g ← MetadataSource.all.foldlM (Gathering.consultSource providers options)
    (m.gathering item options)
  return (g.item, g.update)

end Manager

end MediaRefresh
