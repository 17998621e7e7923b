import MediaRefresh.Provider.Registry
import MediaRefresh.Provider.Selection
import MediaRefresh.Refresh.Tracker

/-!
# Refresh: the world around a refresh

A refresh reads settings that stay as they are (`Manager`) and changes a `World`:
the state of the outside, the cancellation flag, the tracker, and a journal of
every call and announcement in order.  The outside is a `Host`: an item store, an
image store and a network, each a record of what it does.  An action may be
interrupted by an error or by a crash, and the world it leaves is kept either way.
-/

set_option autoImplicit false

namespace MediaRefresh

open Numeric

/-- Which items are asked for. -/
structure ItemQuery where
  /-- of these kinds; empty means any -/
  kinds : List ItemKind
  /-- attributed to one of these artists; empty means any -/
  artists : List ItemId
  deriving DecidableEq, Repr

/-- The albums of an artist. -/
def ItemQuery.albumsOf (artist : ItemId) : ItemQuery := ⟨[.musicAlbum], [artist]⟩

/-- How the validation of a folder's children ends. -/
inductive ValidationOutcome where
  /-- well -/
  | done
  /-- with a failure -/
  | failed (f : Failure)
  /-- by crashing -/
  | crashed
  deriving DecidableEq, Repr

/-- What a validation answers. -/
structure ValidationResponse (σ : Type) where
  /-- the progress reported on the way -/
  reports : List Binary64
  outcome : ValidationOutcome
  state : σ
  /-- whether cancellation fired before the answer -/
  fires : Bool

/-- An answer of a web server. -/
structure HttpReply where
  /-- the address that answered, as the transport writes it -/
  address : String
  status : Nat
  /-- the `Content-Type` header, if there is one -/
  contentType : Option String
  body : String
  deriving DecidableEq, Repr

/-- The host of a refresh: its item store, image store, network and clock.  All of them are
part of the state of the outside, which time changes as well. -/
structure Host (σ : Type) where
  /-- the live item of an identifier -/
  item? : σ → ItemId → Option Item
  /-- the options of the library that an item belongs to -/
  libraryOptions : σ → Item → LibraryOptions
  /-- the items that a query asks for -/
  itemsMatching : σ → ItemQuery → List Item
  /-- the physical folders grouped under a collection folder -/
  physicalFolders : σ → Item → List Item
  /-- brings the children of a folder up to date -/
  validateChildren : Item → RefreshOptions → Bool → Surroundings σ → ValidationResponse σ
  /-- persists an item -/
  updateItem : Item → Update → Reaction σ Unit
  /-- stores an image of a media type for an item -/
  saveImage : Item → ImageType → String → String → Reaction σ ItemImage
  /-- asks a web server -/
  httpGet : String → Reaction σ HttpReply
  /-- the present moment -/
  now : σ → Calendar.Instant
  /-- what so many milliseconds make of the outside, its clock included -/
  pass : Nat → σ → σ
  pass_zero : ∀ x, pass 0 x = x
  pass_add : ∀ a b x, pass (a + b) x = pass b (pass a x)

/-- What a refresh reads and never changes. -/
structure Manager (σ : Type) where
  config : Config
  providers : ProviderSet σ
  host : Host σ

/-- A call with an effect on the outside. -/
inductive Call where
  /-- a metadata provider looks an item up -/
  | fetch (provider : String) (info : LookupInfo)
  /-- a metadata provider searches -/
  | search (provider : String) (info : LookupInfo)
  /-- an image provider lists candidates -/
  | listImages (provider : String) (item : Item)
  /-- an image provider generates an image -/
  | generateImage (provider : String) (item : Item) (type : ImageType)
  /-- an image provider fetches an image by address -/
  | downloadImage (provider url : String)
  /-- an image is stored -/
  | saveImage (item : Item) (type : ImageType) (mediaType data : String)
  /-- a saver persists metadata -/
  | save (saver : String) (item : Item)
  /-- a service refreshes an item in its own way -/
  | serve (service : String) (item : Item) (options : RefreshOptions)
  /-- items are listed -/
  | listItems (query : ItemQuery)
  /-- the physical folders of a collection are listed -/
  | listFolders (item : Item)
  /-- the children of a folder are validated -/
  | validateChildren (item : Item) (options : RefreshOptions) (recursively : Bool)
  /-- an item is persisted -/
  | updateItem (item : Item) (update : Update)
  deriving DecidableEq, Repr

/-- A line of the journal. -/
inductive Entry where
  /-- a call was made -/
  | called (c : Call)
  /-- the call that persists an item has succeeded -/
  | persisted (item : Item) (update : Update)
  /-- an event was announced -/
  | announced (e : RefreshEvent)
  deriving DecidableEq, Repr

/-- What a refresh changes. -/
structure World (σ : Type) where
  state : σ
  cancelled : Bool
  tracker : Tracker
  /-- what happened, oldest first -/
  journal : List Entry

namespace World

variable {σ : Type}

/-- A world in which nothing has happened. -/
def fresh (state : σ) : World σ := ⟨state, false, .empty, []⟩

/-- The calls in the journal. -/
def calls (w : World σ) : List Call :=
  w.journal.filterMap fun | .called c => some c | _ => none

/-- The events in the journal. -/
def events (w : World σ) : List RefreshEvent :=
  w.journal.filterMap fun | .announced e => some e | _ => none

/-- What a call sees of the world. -/
def surroundings (w : World σ) : Surroundings σ := ⟨w.state, w.cancelled⟩

/-- The world after so many milliseconds in which only time passes. -/
def later (w : World σ) (host : Host σ) (milliseconds : Nat) : World σ :=
  { w with state := host.pass milliseconds w.state }

@[simp] theorem later_zero (w : World σ) (host : Host σ) : w.later host 0 = w := by
  rw [later, host.pass_zero]

theorem later_later (w : World σ) (host : Host σ) (a b : Nat) :
    (w.later host a).later host b = w.later host (a + b) := by
  rw [later, later, later, host.pass_add]

end World

/-- Why an action stopped. -/
inductive Interrupt where
  /-- with an error -/
  | failed (e : RefreshError)
  /-- a collaborator crashed -/
  | crashed
  deriving DecidableEq, Repr

/-- An action on the world. -/
abbrev RefreshM (σ α : Type) := EStateM Interrupt (World σ) α

/-- The world that an action leaves. -/
def World.after {σ α : Type} : EStateM.Result Interrupt (World σ) α → World σ
  | .ok _ w => w
  | .error _ w => w

namespace RefreshM

variable {σ α : Type}

/-- Stops with an error. -/
def fail (e : RefreshError) : RefreshM σ α := throw (.failed e)

/-- Adds a line to the journal. -/
def note (e : Entry) : RefreshM σ Unit := modify fun w => { w with journal := w.journal ++ [e] }

/-- Announces an event. -/
def announce (e : RefreshEvent) : RefreshM σ Unit := note (.announced e)

/-- Whether the action has been cancelled. -/
def isCancelled : RefreshM σ Bool := return (← get).cancelled

/-- Stops when the action has been cancelled. -/
def checkCancelled : RefreshM σ Unit := do
  if ← isCancelled then fail .cancelled

/-- Makes a call that is not in the journal. -/
def askUnnoted (r : Reaction σ α) : RefreshM σ (Except Failure α) := do
  let w ← get
  let answer := r w.surroundings
  set { w with state := answer.state, cancelled := w.cancelled || answer.fires }
  return answer.outcome

/-- Notes a call and makes it. -/
def ask (c : Call) (r : Reaction σ α) : RefreshM σ (Except Failure α) := do
  note (.called c)
  askUnnoted r

/-- Runs an action to its end and gives its error as a value; a crash goes on. -/
def attempt (x : RefreshM σ α) : RefreshM σ (Except RefreshError α) := fun w =>
  match x w with
  | .ok a w => .ok (.ok a) w
  | .error (.failed e) w => .ok (.error e) w
  | .error .crashed w => .error .crashed w

/-- Goes on with a value or stops with its error. -/
def settle (r : Except RefreshError α) : RefreshM σ α :=
  match r with
  | .ok a => pure a
  | .error e => fail e

/-- Marks an item as being refreshed. -/
def start (item : Item) : RefreshM σ Unit := do
  let (tracker, event) := (← get).tracker.start item
  modify fun w => { w with tracker := tracker }
  announce event

/-- Records the progress of a refresh; fails when it is not running. -/
def report (item : Item) (progress : Binary64) : RefreshM σ Unit := do
  match (← get).tracker.report item progress with
  | .ok (tracker, event) =>
    modify fun w => { w with tracker := tracker }
    announce event
  | .error e => fail e

/-- Marks the refresh of an item as ended. -/
def complete (item : Item) : RefreshM σ Unit := do
  let (tracker, event) := (← get).tracker.complete item
  modify fun w => { w with tracker := tracker }
  announce event

/-- Marks an item as being refreshed for the time of an action, whether it
succeeds or fails; a crash leaves the mark. -/
def during (item : Item) (x : RefreshM σ α) : RefreshM σ α := do
  start item
  let result ← attempt x
  complete item
  settle result

end RefreshM

namespace Manager

variable {σ : Type}

/-- The global settings for the kind of an item. -/
def kindOptions (m : Manager σ) (item : Item) : KindOptions :=
  m.config.metadata.kindOptions item.kind

/-- The settings in force for an item, in a given state of the outside. -/
def policy (m : Manager σ) (state : σ) (item : Item) : Policy :=
  ⟨m.host.libraryOptions state item, m.kindOptions item⟩

/-- A text that is not blank, or the fallback. -/
def nonBlank (s : Option String) (fallback : String) : String :=
  (s.filter fun s => !Text.blank s).getD fallback

/-- The language for lookups of an item. -/
def language (m : Manager σ) (item : Item) : String :=
  nonBlank item.preferredLanguage m.config.metadata.language

/-- The country for lookups of an item. -/
def country (m : Manager σ) (item : Item) : String :=
  nonBlank item.preferredCountry m.config.metadata.country

/-- The image providers for an item under its library's settings. -/
def imageProviders (m : Manager σ) (state : σ) (item : Item) (mode : RefreshMode)
    (includeDisabled : Bool) : List (ImageProvider σ) :=
  ImageProvider.select m.providers.imageProviders item (m.policy state item) mode includeDisabled

/-- The metadata providers for an item under the given library settings. -/
def metadataProviders (m : Manager σ) (item : Item) (library : LibraryOptions)
    (includeDisabled forceInternet : Bool) : List (MetadataProvider σ) :=
  MetadataProvider.select m.providers.metadataProviders item ⟨library, m.kindOptions item⟩
    includeDisabled forceInternet

/-- The name of placeholder items. -/
def placeholderName : String := "dummy"

/-- The path of a file in a directory. -/
def joinPath (directory file : String) : String :=
  if directory = "" then file
  else if directory.toList.getLast? = some '/' then directory ++ file
  else directory ++ "/" ++ file

/-- An item of a kind that stands for items that do not exist yet. -/
def placeholder (m : Manager σ) (kind : ItemKind) : Item :=
  ((Item.bare .zero kind placeholderName).withPath
    (joinPath m.config.metadata.internalPath placeholderName)).withParent .zero

end Manager

end MediaRefresh
