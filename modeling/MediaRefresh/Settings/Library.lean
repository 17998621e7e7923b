import MediaRefresh.Item.Kind
import MediaRefresh.Value.Form

/-!
# Settings: options of a library

Each library may restrict and order the fetchers per kind of item; a block for a
kind is authoritative for it.
-/

set_option autoImplicit false

namespace MediaRefresh

/-- The fetchers of one kind of item in a library. -/
structure TypeBlock where
  kind : ItemKind
  metadataFetchers : List String
  metadataFetcherOrder : List String
  imageFetchers : List String
  imageFetcherOrder : List String
  deriving DecidableEq, Repr, Inhabited

namespace TypeBlock

/-- The fields of the written form, in order. -/
def names : List String :=
  ["item_kind", "metadata_fetchers", "metadata_fetcher_order", "image_fetchers",
   "image_fetcher_order"]

/-- A list of names that may be left out when it is empty. -/
def listForm (name : String) (texts : List String) : String × Bool × Form :=
  Form.defaulted name texts.isEmpty (Form.texts texts)

/-- The written form of a block. -/
def form (b : TypeBlock) : Form :=
  .record
    [Form.always "item_kind" (.leaf b.kind.toValue),
     listForm "metadata_fetchers" b.metadataFetchers,
     listForm "metadata_fetcher_order" b.metadataFetcherOrder,
     listForm "image_fetchers" b.imageFetchers,
     listForm "image_fetcher_order" b.imageFetcherOrder]

/-- The block as a document. -/
def toValue (b : TypeBlock) : Value := b.form.value

/-- Reads a block. -/
def decode (d : Dialect) : Decoder TypeBlock := fun v => do
  let fs ← Fields.of? d names v
  return {
    kind := ← fs.required "item_kind" (ItemKind.decode d)
    metadataFetchers := ← fs.defaulted "metadata_fetchers" [] Decode.texts
    metadataFetcherOrder := ← fs.defaulted "metadata_fetcher_order" [] Decode.texts
    imageFetchers := ← fs.defaulted "image_fetchers" [] Decode.texts
    imageFetcherOrder := ← fs.defaulted "image_fetcher_order" [] Decode.texts }

end TypeBlock

/-- The options of a library. -/
structure LibraryOptions where
  /-- when off, remote fetchers are off unless a block enables them -/
  internet : Bool
  /-- metadata is written next to media files -/
  saveLocal : Bool
  /-- overrides the global order of local readers when set -/
  readerOrder : Option (List String)
  /-- the savers that are on; without it the global settings decide -/
  savers : Option (List String)
  blocks : List TypeBlock
  deriving DecidableEq, Repr

namespace LibraryOptions

/-- The options of a library that sets none. -/
def standard : LibraryOptions := ⟨true, false, none, none, []⟩

instance : Inhabited LibraryOptions := ⟨standard⟩

/-- The block for a kind, if the library has one. -/
def block? (o : LibraryOptions) (kind : ItemKind) : Option TypeBlock :=
  o.blocks.find? (·.kind == kind)

/-- The fields of the written form, in order. -/
def names : List String :=
  ["enable_internet_providers", "save_local_metadata", "local_metadata_reader_order",
   "metadata_savers", "type_options"]

/-- An optional list of texts as a document. -/
def listValue (names : List String) : Value := .list (names.map .text)

/-- The written form of the options. -/
def form (o : LibraryOptions) : Form :=
  .record
    [Form.defaulted "enable_internet_providers" o.internet (.leaf (.bool o.internet)),
     Form.defaulted "save_local_metadata" (!o.saveLocal) (.leaf (.bool o.saveLocal)),
     Form.optional "local_metadata_reader_order" listValue o.readerOrder,
     Form.optional "metadata_savers" listValue o.savers,
     Form.defaulted "type_options" o.blocks.isEmpty (.list (o.blocks.map TypeBlock.form))]

/-- The options as a document. -/
def toValue (o : LibraryOptions) : Value := o.form.value

/-- Reads options. -/
def decode (d : Dialect) : Decoder LibraryOptions := fun v => do
  let fs ← Fields.of? d names v
  return {
    internet := ← fs.defaulted "enable_internet_providers" true Decode.bool
    saveLocal := ← fs.defaulted "save_local_metadata" false Decode.bool
    readerOrder := ← fs.optionalDefaulted "local_metadata_reader_order" Decode.texts
    savers := ← fs.optionalDefaulted "metadata_savers" Decode.texts
    blocks := ← fs.defaulted "type_options" [] (Decode.list (TypeBlock.decode d)) }

end LibraryOptions

end MediaRefresh
