import MediaRefresh.Proofs.Image.Report
import MediaRefresh.Proofs.Provider.Settings
import MediaRefresh.Proofs.Refresh.Artist
import MediaRefresh.Provider.Plugins

/-!
# Providers: a summary and every selection

A summary is made for a placeholder: an item with a path, neither locked nor owned, in a
library that restricts nothing and with everything included that is disabled.  So nothing but
its kind stands in the way of a metadata provider, and the summary of a kind has every one
that some item of the kind is looked up with, whatever the settings are.  An image provider is
asked about the placeholder itself, so that the same holds of those that look at the kind only.
-/

set_option autoImplicit false

namespace MediaRefresh

variable {σ : Type}

/-! ## Roles -/

/-- The role of the metadata providers of a source; two kinds of sources have none. -/
def MetadataSource.role? : MetadataSource → Option PluginRole
  | .disk => some .localMetadata
  | .remote => some .metadataFetcher
  | .forced | .custom => none

/-- The role of the image providers of a source. -/
def ImageSource.role : ImageSource → PluginRole
  | .disk => .localImages
  | .remote | .dynamic => .imageFetcher

/-- The names of the plugins under a role. -/
def Plugin.under (role : PluginRole) (plugins : List Plugin) : List String :=
  (plugins.filter (·.role == role)).map Plugin.name

namespace Plugin

variable {role r : PluginRole} {plugins : List Plugin}

theorem mem_under {name : String} : name ∈ under role plugins ↔ ⟨name, role⟩ ∈ plugins := by
  unfold under
  rw [List.mem_map]
  constructor
  · rintro ⟨⟨_, _⟩, hp, rfl⟩
    obtain ⟨hp, hrole⟩ := List.mem_filter.mp hp
    rwa [← beq_iff_eq.mp hrole]
  · intro hp
    exact ⟨_, List.mem_filter.mpr ⟨hp, beq_self_eq_true role⟩, rfl⟩

theorem under_append (plugins more : List Plugin) :
    under role (plugins ++ more) = under role plugins ++ under role more := by
  unfold under
  rw [List.filter_append, List.map_append]

/-- Plugins that all have one role. -/
theorem under_map {α : Type} (name : α → String) (l : List α) :
    under role (l.map fun a => ⟨name a, r⟩) = if r = role then l.map name else [] := by
  unfold under
  split_ifs with hrole
  · rw [List.filter_eq_self.mpr (by simp [hrole]), List.map_map]
    rfl
  · rw [List.filter_eq_nil_iff.mpr (by simp [hrole]), List.map_nil]

end Plugin

/-! ## The placeholder -/

namespace Manager

variable {m : Manager σ} {kind : ItemKind} {item : Item} {policy : Policy}

@[simp] theorem placeholder_kind : (m.placeholder kind).kind = kind := rfl

/-- Nothing about the placeholder stands in the way of a metadata provider. -/
theorem suits_placeholder (p : MetadataProvider σ) :
    p.suits (m.placeholder kind) = p.handles kind := by
  have hpath : (m.placeholder kind).supportsLocalMetadata = true := rfl
  have howned : (m.placeholder kind).isOwned = false := rfl
  unfold MetadataProvider.suits
  rw [hpath, howned, placeholder_kind]
  simp

theorem applies_placeholder (p : MetadataProvider σ) (forceInternet : Bool) :
    p.applies (m.placeholder kind) policy true forceInternet = p.handles kind := by
  unfold MetadataProvider.applies
  rw [suits_placeholder, Bool.true_or, Bool.and_true]

/-- A source's part of the metadata providers that are selected for the placeholder. -/
theorem placeholder_metadata_perm (source : MetadataSource) :
    ((MetadataProvider.select m.providers.metadataProviders (m.placeholder kind) policy true
        true).filter (·.source == source)).Perm
      (m.providers.metadataProviders.filter fun p => p.source == source && p.handles kind) := by
  rw [MetadataProvider.filter_select]
  refine (List.mergeSort_perm _ _).trans ?_
  simp_rw [applies_placeholder]
  rw [filter_filter_comm, List.filter_filter]

/-- Some of the image providers that are selected for the placeholder. -/
theorem placeholder_images_perm (keep : ImageProvider σ → Bool) :
    ((ImageProvider.select m.providers.imageProviders (m.placeholder kind) policy .full
        true).filter keep).Perm
      (m.providers.imageProviders.filter fun p =>
        keep p && agreed (p.supports (m.placeholder kind))) := by
  rw [ImageProvider.filter_select]
  refine (List.mergeSort_perm _ _).trans ?_
  simp only [ImageProvider.applies, Bool.true_or, Bool.true_and]
  rw [filter_filter_comm, List.filter_filter]

/-! ## What a summary lists -/

theorem summary_metadata {source : MetadataSource} {role : PluginRole}
    (h : source.role? = some role) :
    (Plugin.under role (m.pluginSummary kind).plugins).Perm
      ((m.providers.metadataProviders.filter fun p => p.source == source && p.handles kind).map
        MetadataProvider.name) := by
  cases source with
  | disk =>
    cases h
    simp only [pluginSummary, Plugin.under_append, Plugin.under_map, reduceCtorEq, if_true,
      if_false, List.append_nil]
    exact (placeholder_metadata_perm .disk).map _
  | remote =>
    cases h
    simp only [pluginSummary, Plugin.under_append, Plugin.under_map, reduceCtorEq, if_true,
      if_false, List.append_nil, List.nil_append]
    exact (placeholder_metadata_perm .remote).map _
  | forced => cases h
  | custom => cases h

theorem summary_images (source : ImageSource) :
    (Plugin.under source.role (m.pluginSummary kind).plugins).Perm
      ((m.providers.imageProviders.filter fun p =>
        p.source.role == source.role && agreed (p.supports (m.placeholder kind))).map
          ImageProvider.name) := by
  have hdisk (s : ImageSource) : (s.role == .localImages) = (s == .disk) := by cases s <;> rfl
  have hfetched (s : ImageSource) : (s.role == .imageFetcher) = (s != .disk) := by
    cases s <;> rfl
  obtain hrole | hrole : source.role = .localImages ∨ source.role = .imageFetcher := by
    cases source <;> decide
  · simp only [hrole, hdisk, pluginSummary, Plugin.under_append, Plugin.under_map, reduceCtorEq,
      if_true, if_false, List.append_nil, List.nil_append]
    exact (placeholder_images_perm (·.source == .disk)).map _
  · simp only [hrole, hfetched, pluginSummary, Plugin.under_append, Plugin.under_map, reduceCtorEq,
      if_true, if_false, List.append_nil, List.nil_append]
    exact (placeholder_images_perm (·.source != .disk)).map _

/-- The fetchers among the image providers that agree to the placeholder. -/
theorem mem_imageTypes {t : ImageType} : t ∈ (m.pluginSummary kind).imageTypes ↔
    ∃ p ∈ m.providers.imageProviders, p.source ≠ .disk ∧
      agreed (p.supports (m.placeholder kind)) = true ∧ t ∈ p.types (m.placeholder kind) := by
  have hmem (p : ImageProvider σ) :
      p ∈ (ImageProvider.select m.providers.imageProviders (m.placeholder kind)
          ⟨.standard, m.kindOptions (m.placeholder kind)⟩ .full true).filter (·.source != .disk) ↔
        p ∈ m.providers.imageProviders.filter fun p =>
          p.source != .disk && agreed (p.supports (m.placeholder kind)) :=
    (placeholder_images_perm (·.source != .disk)).mem_iff
  unfold pluginSummary
  simp only [List.mem_eraseDups, List.mem_flatMap, hmem, List.mem_filter, Bool.and_eq_true,
    bne_iff_ne, and_assoc]

/-- What a summary tells about the providers of a manager. -/
structure Summarises (m : Manager σ) (s : PluginSummary) : Prop where
  /-- the local readers and the metadata fetchers that handle the kind, one entry for each -/
  metadata : ∀ source role, MetadataSource.role? source = some role →
    (Plugin.under role s.plugins).Perm
      ((m.providers.metadataProviders.filter fun p => p.source == source && p.handles s.kind).map
        MetadataProvider.name)
  /-- whichever of them any item of the kind is looked up with, under any settings -/
  metadata_selectable : ∀ item policy includeDisabled forceInternet, Item.kind item = s.kind →
    ∀ p ∈ MetadataProvider.select m.providers.metadataProviders item policy includeDisabled
      forceInternet, ∀ role, p.source.role? = some role → ⟨p.name, role⟩ ∈ s.plugins
  /-- the image providers that agree to the placeholder, one entry for each -/
  images : ∀ source, (Plugin.under (ImageSource.role source) s.plugins).Perm
    ((m.providers.imageProviders.filter fun p =>
      p.source.role == source.role && agreed (p.supports (m.placeholder s.kind))).map
        ImageProvider.name)
  /-- whichever image providers any item of the kind is given, under any settings, if they all
  look at the kind only -/
  images_selectable :
    (∀ p ∈ m.providers.imageProviders, ∀ a b : Item, a.kind = b.kind →
      agreed (p.supports a) = agreed (p.supports b)) →
    ∀ item policy mode includeDisabled, Item.kind item = s.kind →
      ∀ p ∈ ImageProvider.select m.providers.imageProviders item policy mode includeDisabled,
        ⟨p.name, p.source.role⟩ ∈ s.plugins
  /-- the types of images that the fetchers among them have for the placeholder -/
  types : ∀ t, t ∈ s.imageTypes ↔ ∃ p ∈ m.providers.imageProviders, p.source ≠ .disk ∧
    agreed (p.supports (m.placeholder s.kind)) = true ∧ t ∈ p.types (m.placeholder s.kind)
  types_once : s.imageTypes.Nodup

theorem summarises (m : Manager σ) (kind : ItemKind) : m.Summarises (m.pluginSummary kind) where
  metadata _ _ := summary_metadata
  metadata_selectable item policy includeDisabled forceInternet hkind p hp role hrole := by
    obtain ⟨hregistered, happlies⟩ := MetadataProvider.mem_select.mp hp
    have hsuits := (Bool.and_eq_true_iff.mp happlies).1
    have hhandles : p.handles kind = true := by
      rw [← show item.kind = kind from hkind]
      exact (Bool.and_eq_true_iff.mp (Bool.and_eq_true_iff.mp hsuits).1).1
    rw [← Plugin.mem_under, (summary_metadata hrole).mem_iff]
    refine List.mem_map_of_mem (List.mem_filter.mpr ⟨hregistered, ?_⟩)
    rw [hhandles, beq_self_eq_true, Bool.and_true]
  images _ := summary_images _
  images_selectable hbyKind item policy mode includeDisabled hkind p hp := by
    obtain ⟨hregistered, happlies⟩ := ImageProvider.mem_select.mp hp
    have hagreed : agreed (p.supports (m.placeholder kind)) = true := by
      rw [hbyKind p hregistered (m.placeholder kind) item hkind.symm]
      exact (Bool.and_eq_true_iff.mp happlies).2
    rw [← Plugin.mem_under, (summary_images p.source).mem_iff]
    refine List.mem_map_of_mem (List.mem_filter.mpr ⟨hregistered, ?_⟩)
    rw [hagreed, beq_self_eq_true, Bool.and_true]
  types _ := mem_imageTypes
  types_once := (firstAppearances_eraseDups _).distinct

/-- There is a summary for each kind that is summarised, in that order.  It has exactly the
registered readers and fetchers for the kind, and so all that any selection for an item of the
kind can have. -/
theorem summaries_complete_and_sound (m : Manager σ) :
    m.pluginSummaries.map PluginSummary.kind = ItemKind.summarised ∧
      ∀ s ∈ m.pluginSummaries, m.Summarises s := by
  unfold pluginSummaries
  refine ⟨?_, List.forall_mem_map.mpr fun kind _ => m.summarises kind⟩
  rw [List.map_map]
  exact List.map_id _

end Manager

/-! ## A summary for films -/

namespace Rehearsal

/-- A manager with a reader, a fetcher and a provider of images. -/
def threeProviders : Manager Stage :=
  { twoProviders false with providers := { ProviderSet.empty with
      metadataProviders := [reader false, catalogue], imageProviders := [frames []] } }

end Rehearsal

open Rehearsal

/-- The fetcher is in the summary for films, and it is asked for a film in a library without
internet whose block names it. -/
theorem Manager.film_summarised :
    ∃ s ∈ threeProviders.pluginSummaries, s.kind = .movie ∧
      (MetadataProvider.select threeProviders.providers.metadataProviders film restrictive false
        false).map MetadataProvider.name = ["Nfo", "Catalogue"] ∧
      ⟨"Catalogue", .metadataFetcher⟩ ∈ s.plugins ∧ ⟨"Frames", .imageFetcher⟩ ∈ s.plugins ∧
      .backdrop ∈ s.imageTypes := by
  obtain ⟨hkinds, hsummaries⟩ := threeProviders.summaries_complete_and_sound
  have hlisted : ItemKind.movie ∈ threeProviders.pluginSummaries.map PluginSummary.kind := by
    rw [hkinds]
    decide
  obtain ⟨s, hs, hkind⟩ := List.mem_map.mp hlisted
  have hselected : MetadataProvider.select threeProviders.providers.metadataProviders film
      restrictive false false = [reader false, catalogue] :=
    MetadataProvider.select_of_ordered (by decide) (by decide)
  have hframes : frames [] ∈ ImageProvider.select threeProviders.providers.imageProviders film
      restrictive .full true := ImageProvider.mem_select.mpr ⟨List.mem_singleton_self _, rfl⟩
  have hsame := hsummaries s hs
  refine ⟨s, hs, hkind, by rw [hselected]; rfl, ?_, ?_, ?_⟩
  · refine hsame.metadata_selectable film restrictive false false hkind.symm catalogue ?_ _ rfl
    rw [hselected]
    exact List.mem_cons_of_mem _ (List.mem_singleton_self _)
  · refine hsame.images_selectable ?_ film restrictive .full true hkind.symm _ hframes
    intro p hp a b _
    rw [List.mem_singleton.mp hp]
    rfl
  · have hreported : ImageType.backdrop ∈ [ImageType.primary, .backdrop] := by decide
    exact (hsame.types _).mpr ⟨frames [], List.mem_singleton_self _, by decide, rfl, hreported⟩

end MediaRefresh
