import MediaRefresh.Image.Gather
import MediaRefresh.Metadata.Gather

/-!
# Refresh: one item

The service responsible for an item refreshes it: the dedicated service of its
kind, else the first that can.  A service that consults the providers gathers
metadata and images, and when something changed stamps the item, persists it and
runs the savers.  A change is announced once, after all that.
-/

set_option autoImplicit false

namespace MediaRefresh

variable {σ : Type}

/-- The turn of one saver after an update, unless it does not apply.  If it fails, that
is passed over. -/
def Saver.turn (s : Saver σ) (item : Item) (policy : Policy) (update : Update) :
    RefreshM σ Unit := do
  RefreshM.checkCancelled
  if s.applies item policy update false then
    let _ ← RefreshM.ask (.save s.name item) (s.save item)

namespace Manager

/-- Runs the savers that apply to an item after an update, in order. -/
def saveMetadata (m : Manager σ) (item : Item) (update : Update) : RefreshM σ Unit := do
  let policy := m.policy (← get).state item
  m.providers.savers.forM fun s => s.turn item policy update

/-- The item with the time of its refresh. -/
def stamp (m : Manager σ) (item : Item) : RefreshM σ Item :=
  return { item with lastRefreshed := some (m.host.now (← get).state) }

/-- Persists an item; a failure becomes an error with the given context. -/
def persist (m : Manager σ) (context : String) (item : Item) (update : Update) :
    RefreshM σ Unit := do
  match ← RefreshM.ask (.updateItem item update) (m.host.updateItem item update) with
  | .ok () => RefreshM.note (.persisted item update)
  | .error f => RefreshM.fail (.internal (f.within context).text)

/-- What a step of gathering makes of an item, if it is asked for. -/
def gatherWhen (asked : Bool) (step : Item → RefreshM σ (Item × Update)) (item : Item) :
    RefreshM σ (Item × Update) :=
  if asked then step item else pure (item, .empty)

/-- The item with what the providers know of it, and what changed. -/
def gather (m : Manager σ) (item : Item) (options : RefreshOptions) :
    RefreshM σ (Item × Update) := do
  let (item, found) ← gatherWhen options.metadataMode.fetches (m.gatherMetadata · options) item
  let (item, pictured) ← gatherWhen options.imageMode.fetches (m.gatherImages · options) item
  return (item, found.union pictured)

/-- Stamps an item, persists it and runs the savers. -/
def commit (m : Manager σ) (item : Item) (update : Update) : RefreshM σ Unit := do
  let item ← m.stamp item
  m.persist ("updating item " ++ item.id.text) item update
  m.saveMetadata item update

/-- Refreshes an item by consulting the providers. -/
def refreshByProviders (m : Manager σ) (item : Item) (options : RefreshOptions) :
    RefreshM σ Update := do
  let (item, update) ← m.gather item options
  if update.isEmpty && !options.forceSave then return update
  else
    m.commit item update
    return update

/-- The service responsible for an item. -/
def service? (m : Manager σ) (item : Item) : Option (Service σ) :=
  (m.providers.services.find? (·.dedicatedTo item.kind)).orElse fun _ =>
    m.providers.services.find? (·.canRefresh item)

/-- Refreshes an item in the way of a service. -/
def serve (m : Manager σ) (s : Service σ) (item : Item) (options : RefreshOptions) :
    RefreshM σ Update := do
  match s.work with
  | .consult => m.refreshByProviders item options
  | .own name refresh =>
    RefreshM.note (.called (.serve name item options))
    let w ← get
    let answer := refresh item options w.surroundings
    set { w with state := answer.state, cancelled := w.cancelled || answer.fires }
    match answer.outcome with
    | .done update => return update
    | .failed e => RefreshM.fail e
    | .crashed => throw .crashed

/-- Refreshes an item's own metadata and announces what changed.  Without a
service nothing happens. -/
def refreshSingle (m : Manager σ) (item : Item) (options : RefreshOptions) :
    RefreshM σ Update := do
  RefreshM.checkCancelled
  match m.service? item with
  | none => return .empty
  | some s =>
    let update ← m.serve s item options
    if update.isEmpty then return update
    else
      RefreshM.announce (.updated item.id update.toList)
      return update

end Manager

end MediaRefresh
