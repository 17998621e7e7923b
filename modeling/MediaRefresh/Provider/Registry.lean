import MediaRefresh.Provider.Basic
import MediaRefresh.Text.Folding

/-!
# Providers: the registered ones

A registration replaces every category of providers at once.  Services are kept
in ascending order and catalogues by name, both stably; savers that are off are
dropped.  A set that has been taken from the registry is a value and never
changes.
-/

set_option autoImplicit false

namespace MediaRefresh

/-- The providers of every category. -/
structure ProviderSet (σ : Type) where
  imageProviders : List (ImageProvider σ)
  /-- ascending by order -/
  services : List (Service σ)
  metadataProviders : List (MetadataProvider σ)
  /-- the enabled ones, as declared -/
  savers : List (Saver σ)
  /-- ascending by name -/
  catalogues : List Catalogue

namespace ProviderSet

variable {σ : Type}

/-- No providers. -/
def empty : ProviderSet σ := ⟨[], [], [], [], []⟩

instance : Inhabited (ProviderSet σ) := ⟨empty⟩

/-- The set that a registration makes of the declared providers. -/
def register (imageProviders : List (ImageProvider σ)) (services : List (Service σ))
    (metadataProviders : List (MetadataProvider σ)) (savers : List (Saver σ))
    (catalogues : List Catalogue) : ProviderSet σ where
  imageProviders := imageProviders
  services := services.mergeSort fun a b => a.order ≤ b.order
  metadataProviders := metadataProviders
  savers := savers.filter Saver.enabled
  catalogues := catalogues.mergeSort fun a b => a.name ≤ b.name

/-- The first image provider of that name, in any case. -/
def imageProvider? (set : ProviderSet σ) (name : String) : Option (ImageProvider σ) :=
  set.imageProviders.find? fun p => Text.same p.name name

/-- The number of providers of each category, in words. -/
def describe (set : ProviderSet σ) : String :=
  "ProviderSet \x7b image_providers: " ++ toString set.imageProviders.length ++
    ", metadata_services: " ++ toString set.services.length ++
    ", metadata_providers: " ++ toString set.metadataProviders.length ++
    ", savers: " ++ toString set.savers.length ++
    ", external_ids: " ++ toString set.catalogues.length ++ " \x7d"

end ProviderSet

end MediaRefresh
