import MediaRefresh.Provider.Basic
import MediaRefresh.Settings.Config
import MediaRefresh.Text.Folding

/-!
# Providers: which ones apply to an item, and in which order

Everything here is a function of the providers and the settings in force for an
item.  A block of the library for the kind is authoritative; without one, a
library without internet turns remote fetchers off, and otherwise the global list
of disabled fetchers counts.  Selected providers are ordered by their place in
the configured order, then by their own order, then as registered.
-/

set_option autoImplicit false

namespace MediaRefresh

/-- The settings in force for an item: those of its library and the global ones
for its kind. -/
structure Policy where
  library : LibraryOptions
  kind : KindOptions
  deriving DecidableEq, Repr

/-- The largest place in an order. -/
def lastPlace : Int := 2147483647

/-- The place of image providers that are local or not configured. -/
def unplacedImage : Int := 100

/-- The place of `name` in an order, ignoring case, or `fallback`. -/
def configuredPlace (order : List String) (name : String) (fallback : Int) : Int :=
  match order.findIdx? (Text.same · name) with
  | some i => if (i : Int) ≤ lastPlace then i else fallback
  | none => fallback

/-- Whether the first pair of places stands at or before the second. -/
def placedBefore (a b : Int × Int) : Bool := a.1 < b.1 || (a.1 == b.1 && a.2 ≤ b.2)

namespace Policy

/-- Whether a fetcher is enabled for a kind: named by the block if there is one,
else not disabled in a library with internet. -/
def enables (p : Policy) (kind : ItemKind) (allowed : TypeBlock → List String)
    (disabled : List String) (name : String) : Bool :=
  match p.library.block? kind with
  | some block => Text.listed (allowed block) name
  | none => p.library.internet && !Text.listed disabled name

/-- Whether the image fetcher of that name is enabled for a kind. -/
def enablesImages (p : Policy) (kind : ItemKind) (name : String) : Bool :=
  p.enables kind TypeBlock.imageFetchers p.kind.disabledImageFetchers name

/-- Whether the metadata fetcher of that name is enabled for a kind. -/
def enablesMetadata (p : Policy) (kind : ItemKind) (name : String) : Bool :=
  p.enables kind TypeBlock.metadataFetchers p.kind.disabledMetadataFetchers name

/-- The order of image fetchers for a kind. -/
def imageOrder (p : Policy) (kind : ItemKind) : List String :=
  ((p.library.block? kind).map TypeBlock.imageFetcherOrder).getD p.kind.imageFetcherOrder

/-- The order of metadata fetchers for a kind. -/
def metadataOrder (p : Policy) (kind : ItemKind) : List String :=
  ((p.library.block? kind).map TypeBlock.metadataFetcherOrder).getD p.kind.metadataFetcherOrder

/-- The order of local readers. -/
def readerOrder (p : Policy) : List String := p.library.readerOrder.getD p.kind.readerOrder

end Policy

/-- An answer that counts as "no" when the question failed. -/
def agreed (answer : Except Failure Bool) : Bool :=
  match answer with
  | .ok b => b
  | .error _ => false

variable {σ : Type}

namespace ImageProvider

/-- Whether the provider is allowed to work on an item under the settings. -/
def permitted (p : ImageProvider σ) (item : Item) (policy : Policy) (mode : RefreshMode) : Bool :=
  !(item.locked && p.source != .disk && mode != .full) &&
    (p.source == .disk || policy.enablesImages item.kind p.name)

/-- Whether the provider applies to an item. -/
def applies (p : ImageProvider σ) (item : Item) (policy : Policy) (mode : RefreshMode)
    (includeDisabled : Bool) : Bool :=
  (includeDisabled || p.permitted item policy mode) && agreed (p.supports item)

/-- The place of a provider. -/
def place (p : ImageProvider σ) (item : Item) (policy : Policy) : Int × Int :=
  (match p.source with
    | .disk => unplacedImage
    | _ => configuredPlace (policy.imageOrder item.kind) p.name unplacedImage,
   p.order)

/-- The providers that apply to an item, in fetch order. -/
def select (providers : List (ImageProvider σ)) (item : Item) (policy : Policy)
    (mode : RefreshMode) (includeDisabled : Bool) : List (ImageProvider σ) :=
  (providers.filter fun p => p.applies item policy mode includeDisabled).mergeSort fun a b =>
    placedBefore (a.place item policy) (b.place item policy)

end ImageProvider

namespace MetadataProvider

/-- Whether the provider is allowed to work on an item under the settings. -/
def permitted (p : MetadataProvider σ) (item : Item) (policy : Policy) (forceInternet : Bool) :
    Bool :=
  !(item.locked && !(p.source == .disk || p.source == .forced)) &&
    (p.source != .remote || forceInternet || policy.enablesMetadata item.kind p.name)

/-- Whether the provider can work on an item at all: local ones need a place on
disk, and owned items follow their owner. -/
def suits (p : MetadataProvider σ) (item : Item) : Bool :=
  p.handles item.kind && !(p.source == .disk && !item.supportsLocalMetadata) &&
    !(item.isOwned && (p.source == .disk || p.source == .remote))

/-- Whether the provider applies to an item. -/
def applies (p : MetadataProvider σ) (item : Item) (policy : Policy)
    (includeDisabled forceInternet : Bool) : Bool :=
  p.suits item && (includeDisabled || p.permitted item policy forceInternet)

/-- The place of a provider. -/
def place (p : MetadataProvider σ) (item : Item) (policy : Policy) : Int × Int :=
  (match p.source with
    | .disk => configuredPlace policy.readerOrder p.name lastPlace
    | .remote => configuredPlace (policy.metadataOrder item.kind) p.name lastPlace
    | _ => lastPlace,
   p.order)

/-- The providers that apply to an item, in lookup order. -/
def select (providers : List (MetadataProvider σ)) (item : Item) (policy : Policy)
    (includeDisabled forceInternet : Bool) : List (MetadataProvider σ) :=
  (providers.filter fun p => p.applies item policy includeDisabled forceInternet).mergeSort
    fun a b => placedBefore (a.place item policy) (b.place item policy)

end MetadataProvider

namespace Saver

/-- Whether the saver persists an item after an update: the item is on disk, the
saver agrees, and the library's list names it.  Without a list it must not be
disabled, and a library that keeps no local metadata only saves downloads and
edits. -/
def applies (s : Saver σ) (item : Item) (policy : Policy) (update : Update)
    (includeDisabled : Bool) : Bool :=
  item.supportsLocalMetadata && agreed (s.accepts item update) &&
    (includeDisabled ||
      match policy.library.savers with
      | some names => Text.listed names s.name
      | none =>
        !Text.listed policy.kind.disabledSavers s.name &&
          (policy.library.saveLocal || update.reaches .metadataDownload))

end Saver

end MediaRefresh
