import MediaRefresh.Refresh.Service

/-!
# Refresh: an item and what it contains

A folder's children are validated after its own refresh.  A collection folder
refreshes and validates its physical folders one by one, an artist validates its
album groupings first.  A part that fails is passed over; only cancellation, or a
crash, stops the rest.
-/

set_option autoImplicit false

namespace MediaRefresh

open Numeric

variable {σ : Type}

namespace RefreshM

/-- Records a progress report, if the refresh is running. -/
def reportLeniently (item : Item) (progress : Binary64) : RefreshM σ Unit := do
  let _ ← attempt (report item progress)

end RefreshM

namespace Manager

/-- Validates the children of a folder; each progress report is handed to `onReport`. -/
def validateWith (m : Manager σ) (onReport : Binary64 → RefreshM σ Unit) (folder : Item)
    (options : RefreshOptions) (recursively : Bool) : RefreshM σ ValidationOutcome := do
  RefreshM.note (.called (.validateChildren folder options recursively))
  let w ← get
  let answer := m.host.validateChildren folder options recursively w.surroundings
  set { w with state := answer.state, cancelled := w.cancelled || answer.fires }
  answer.reports.forM onReport
  return answer.outcome

/-- Validates the children of a folder and reports the progress as the folder's.
A failure after cancellation is the cancellation. -/
def validate (m : Manager σ) (folder : Item) (options : RefreshOptions) (recursively : Bool) :
    RefreshM σ Unit := do
  match ← m.validateWith (RefreshM.reportLeniently folder) folder options recursively with
  | .done => pure ()
  | .failed f =>
    RefreshM.checkCancelled
    RefreshM.fail (.internal (f.within "validating children").text)
  | .crashed => throw .crashed

/-- Refreshes and validates one physical folder. -/
def refreshPhysicalFolder (m : Manager σ) (options : RefreshOptions) (folder : Item) :
    RefreshM σ Unit :=
  RefreshM.during folder do
    let _ ← m.refreshSingle folder options
    m.validate folder options true

/-- Refreshes physical folders one by one. -/
def refreshFolders (m : Manager σ) (options : RefreshOptions) : List Item → RefreshM σ Unit
  | [] => pure ()
  | folder :: rest => do
    RefreshM.checkCancelled
    match ← RefreshM.attempt (m.refreshPhysicalFolder options folder) with
    | .error .cancelled => RefreshM.fail .cancelled
    | _ => m.refreshFolders options rest

/-- Refreshes the physical folders of a collection folder. -/
def refreshCollection (m : Manager σ) (collection : Item) (options : RefreshOptions) :
    RefreshM σ Unit := do
  RefreshM.note (.called (.listFolders collection))
  m.refreshFolders options (m.host.physicalFolders (← get).state collection)

/-- Refreshes an item, then its children if it is a container. -/
def refreshItem (m : Manager σ) (item : Item) (options : RefreshOptions) : RefreshM σ Unit :=
  RefreshM.during item do
    let _ ← m.refreshSingle item options
    if item.kind = .collectionFolder then m.refreshCollection item options
    else if item.kind.isFolder then m.validate item options false
    else pure ()

/-- The live groupings that an artist's albums are filed under, in order of first
appearance. -/
def groupings (m : Manager σ) (state : σ) (albums : List Item) : List Item :=
  (albums.filterMap Item.artistId).eraseDups.filterMap (m.host.item? state)

/-- Validates album groupings, each whatever the others answer.  They are validated together.
A call is one step here, so that the validations stand in the order of the list. -/
def validateGroupings (m : Manager σ) (options : RefreshOptions) : List Item → RefreshM σ Unit
  | [] => pure ()
  | grouping :: rest => do
    match ← m.validateWith (fun _ => pure ()) grouping options true with
    | .crashed => throw .crashed
    | _ => m.validateGroupings options rest

/-- Validates the album groupings of an artist, then refreshes the artist.  An
error of the artist's own refresh is passed over. -/
def refreshArtist (m : Manager σ) (artist : Item) (options : RefreshOptions) :
    RefreshM σ Unit := do
  let query := ItemQuery.albumsOf artist.id
  RefreshM.note (.called (.listItems query))
  let state := (← get).state
  m.validateGroupings options (m.groupings state (m.host.itemsMatching state query))
  RefreshM.checkCancelled
  match ← RefreshM.attempt (RefreshM.during artist (m.refreshSingle artist options)) with
  | .error .cancelled => RefreshM.fail .cancelled
  | _ => pure ()

/-- Refreshes the live item of an identifier in full, at once. -/
def refreshInFull (m : Manager σ) (id : ItemId) : RefreshM σ Unit := do
  match m.host.item? (← get).state id with
  | some item => m.refreshItem item .full
  | none => RefreshM.fail (.notFound "item" id.text)

/-- What the queue does with an item: artists have a way of their own. -/
def refreshQueued (m : Manager σ) (item : Item) (options : RefreshOptions) : RefreshM σ Unit :=
  if item.kind = .musicArtist then m.refreshArtist item options else m.refreshItem item options

end Manager

end MediaRefresh
