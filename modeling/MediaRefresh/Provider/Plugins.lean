import MediaRefresh.Refresh.World
import MediaRefresh.Value.Form

/-!
# Providers: summaries of what could take part

For each kind of item, the plugins that could take part in refreshing items of
that kind in a library that restricts nothing, asked about a placeholder item.
-/

set_option autoImplicit false

namespace MediaRefresh

/-- The part that a plugin plays. -/
inductive PluginRole where
  | localImages
  | imageFetcher
  | localMetadata
  | metadataFetcher
  | saver
  deriving DecidableEq, Repr, Inhabited

namespace PluginRole

/-- Every role, in declaration order. -/
def all : List PluginRole := [localImages, imageFetcher, localMetadata, metadataFetcher, saver]

theorem mem_all (r : PluginRole) : r ∈ all := by cases r <;> decide

/-- The name of a role. -/
def name : PluginRole → String
  | localImages => "local_image_provider"
  | imageFetcher => "image_fetcher"
  | localMetadata => "local_metadata_provider"
  | metadataFetcher => "metadata_fetcher"
  | saver => "metadata_saver"

/-- Reads a role from its name. -/
def decode (d : Dialect) : Decoder PluginRole := Decode.named d all name

end PluginRole

/-- A plugin in a summary. -/
structure Plugin where
  name : String
  role : PluginRole
  deriving DecidableEq, Repr

namespace Plugin

/-- The written form of a plugin. -/
def form (p : Plugin) : Form :=
  .record [Form.text "name" p.name, Form.text "plugin_type" p.role.name]

/-- Reads a plugin. -/
def decode (d : Dialect) : Decoder Plugin := fun v => do
  let fs ← Fields.of? d ["name", "plugin_type"] v
  return { name := ← fs.required "name" Decode.text
           role := ← fs.required "plugin_type" (PluginRole.decode d) }

end Plugin

/-- The plugins for one kind of item. -/
structure PluginSummary where
  kind : ItemKind
  plugins : List Plugin
  /-- the types of images that can be fetched -/
  imageTypes : List ImageType
  deriving DecidableEq, Repr

namespace PluginSummary

/-- The written form of a summary. -/
def form (s : PluginSummary) : Form :=
  .record
    [Form.always "item_kind" (.leaf s.kind.toValue),
     Form.always "plugins" (.list (s.plugins.map Plugin.form)),
     Form.always "supported_image_types" (.leaf (.list (s.imageTypes.map ImageType.toValue)))]

/-- Reads a summary. -/
def decode (d : Dialect) : Decoder PluginSummary := fun v => do
  let fs ← Fields.of? d ["item_kind", "plugins", "supported_image_types"] v
  return {
    kind := ← fs.required "item_kind" (ItemKind.decode d)
    plugins := ← fs.required "plugins" (Decode.list (Plugin.decode d))
    imageTypes := ← fs.required "supported_image_types" (Decode.list (ImageType.decode d)) }

end PluginSummary

namespace Manager

variable {σ : Type}

/-- The plugins that could take part for a kind: local readers, metadata fetchers,
savers by name, local images, image fetchers. -/
def pluginSummary (m : Manager σ) (kind : ItemKind) : PluginSummary :=
  let item := m.placeholder kind
  let policy : Policy := ⟨.standard, m.kindOptions item⟩
  let images := ImageProvider.select m.providers.imageProviders item policy .full true
  let metadata := MetadataProvider.select m.providers.metadataProviders item policy true true
  let savers := m.providers.savers.filter fun s => s.applies item policy (.only .metadataEdit) true
  let fetchers := images.filter (·.source != .disk)
  { kind := kind
    plugins :=
      (metadata.filter (·.source == .disk)).map (⟨·.name, .localMetadata⟩) ++
      (metadata.filter (·.source == .remote)).map (⟨·.name, .metadataFetcher⟩) ++
      ((savers.map Saver.name).mergeSort fun a b => a ≤ b).map (⟨·, .saver⟩) ++
      (images.filter (·.source == .disk)).map (⟨·.name, .localImages⟩) ++
      fetchers.map (⟨·.name, .imageFetcher⟩)
    imageTypes := (fetchers.flatMap fun p => p.types item).eraseDups }

/-- A summary for each kind that is summarised. -/
def pluginSummaries (m : Manager σ) : List PluginSummary :=
  ItemKind.summarised.map m.pluginSummary

end Manager

end MediaRefresh
