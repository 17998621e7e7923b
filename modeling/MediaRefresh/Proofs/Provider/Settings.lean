import MediaRefresh.Proofs.Metadata.CallOrder

/-!
# Providers: settings that add providers, and settings that do not count

Asking for less before a provider applies only adds providers: those that were selected keep
their order.  Where the library has a block for the kind of an item, what the block says is
all that counts.  Whether the library uses the internet and what is set globally for the kind
make no difference then, but for the order of local readers.
-/

set_option autoImplicit false

namespace MediaRefresh

variable {σ : Type}

/-! ## What a block decides -/

namespace Policy

variable {p : Policy} {kind : ItemKind} {block : TypeBlock}

theorem enables_of_block (h : p.library.block? kind = some block)
    (allowed : TypeBlock → List String) (disabled : List String) (name : String) :
    p.enables kind allowed disabled name = Text.listed (allowed block) name := by
  unfold enables
  rw [h]

theorem imageOrder_of_block (h : p.library.block? kind = some block) :
    p.imageOrder kind = block.imageFetcherOrder := by
  unfold imageOrder
  rw [h, Option.map_some, Option.getD_some]

theorem metadataOrder_of_block (h : p.library.block? kind = some block) :
    p.metadataOrder kind = block.metadataFetcherOrder := by
  unfold metadataOrder
  rw [h, Option.map_some, Option.getD_some]

end Policy

/-! ## Elements that are kept, and where they are placed -/

section Placing

variable {α : Type} {place place' : α → Int × Int} {keep keep' : α → Bool} {l : List α}

/-- When more is kept, what was kept before stays in order. -/
theorem placed_sublist (h : ∀ a, keep a = true → keep' a = true) :
    ((l.filter keep).mergeSort fun a b => placedBefore (place a) (place b)).Sublist
      ((l.filter keep').mergeSort fun a b => placedBefore (place a) (place b)) := by
  rw [← filter_filter_of_imp l h, ← filter_placed]
  exact List.filter_sublist

theorem placed_congr (hkeep : ∀ a ∈ l, keep a = keep' a) (hplace : ∀ a ∈ l, place a = place' a) :
    ((l.filter keep).mergeSort fun a b => placedBefore (place a) (place b)) =
      (l.filter keep').mergeSort fun a b => placedBefore (place' a) (place' b) := by
  rw [List.filter_congr hkeep]
  refine mergeSort_congr fun a ha b hb => ?_
  rw [hplace a (List.mem_filter.mp ha).1, hplace b (List.mem_filter.mp hb).1]

end Placing

/-! ## Image providers -/

namespace ImageProvider

variable {providers : List (ImageProvider σ)} {item : Item} {policy p q : Policy}
  {mode mode' : RefreshMode} {includeDisabled includeDisabled' : Bool}

theorem select_sublist
    (h : ∀ x : ImageProvider σ, x.applies item policy mode includeDisabled = true →
      x.applies item policy mode' includeDisabled' = true) :
    (select providers item policy mode includeDisabled).Sublist
      (select providers item policy mode' includeDisabled') :=
  placed_sublist h

theorem applies_of_disabled (x : ImageProvider σ)
    (h : x.applies item policy mode includeDisabled = true) :
    x.applies item policy mode true = true :=
  Bool.and_eq_true_iff.mpr ⟨rfl, (Bool.and_eq_true_iff.mp h).2⟩

/-- Locked items are no exception when all images are fetched again. -/
theorem permitted_full (x : ImageProvider σ) (h : x.permitted item policy mode = true) :
    x.permitted item policy .full = true := by
  obtain ⟨-, henabled⟩ := Bool.and_eq_true_iff.mp h
  exact Bool.and_eq_true_iff.mpr ⟨by simp, henabled⟩

theorem applies_full (x : ImageProvider σ)
    (h : x.applies item policy mode includeDisabled = true) :
    x.applies item policy .full includeDisabled = true := by
  obtain ⟨hallowed, hsupports⟩ := Bool.and_eq_true_iff.mp h
  refine Bool.and_eq_true_iff.mpr ⟨?_, hsupports⟩
  rw [Bool.or_eq_true_iff] at hallowed ⊢
  exact hallowed.imp_right x.permitted_full

/-- Selection sees the settings only where it asks whether a provider applies and where it
stands. -/
theorem select_congr
    (happlies : ∀ x ∈ providers, x.applies item p mode includeDisabled =
      x.applies item q mode includeDisabled)
    (hplace : ∀ x ∈ providers, x.place item p = x.place item q) :
    select providers item p mode includeDisabled =
      select providers item q mode includeDisabled :=
  placed_congr happlies hplace

section Block

variable {block : TypeBlock} (hp : p.library.block? item.kind = some block)
  (hq : q.library.block? item.kind = some block) (x : ImageProvider σ)

include hp hq

theorem applies_of_block : x.applies item p mode includeDisabled =
    x.applies item q mode includeDisabled := by
  unfold applies permitted Policy.enablesImages
  rw [Policy.enables_of_block hp, Policy.enables_of_block hq]

theorem place_of_block : x.place item p = x.place item q := by
  unfold place
  rw [Policy.imageOrder_of_block hp, Policy.imageOrder_of_block hq]

end Block

end ImageProvider

/-! ## Metadata providers -/

namespace MetadataProvider

variable {providers : List (MetadataProvider σ)} {item : Item} {policy p q : Policy}
  {includeDisabled includeDisabled' forceInternet forceInternet' : Bool}

theorem select_sublist
    (h : ∀ x : MetadataProvider σ, x.applies item policy includeDisabled forceInternet = true →
      x.applies item policy includeDisabled' forceInternet' = true) :
    (select providers item policy includeDisabled forceInternet).Sublist
      (select providers item policy includeDisabled' forceInternet') :=
  placed_sublist h

theorem applies_of_disabled (x : MetadataProvider σ)
    (h : x.applies item policy includeDisabled forceInternet = true) :
    x.applies item policy true forceInternet' = true :=
  Bool.and_eq_true_iff.mpr ⟨(Bool.and_eq_true_iff.mp h).1, rfl⟩

theorem permitted_of_internet (x : MetadataProvider σ)
    (h : x.permitted item policy forceInternet = true) : x.permitted item policy true = true := by
  obtain ⟨hunlocked, -⟩ := Bool.and_eq_true_iff.mp h
  exact Bool.and_eq_true_iff.mpr ⟨hunlocked, by simp⟩

theorem applies_of_internet (x : MetadataProvider σ)
    (h : x.applies item policy includeDisabled forceInternet = true) :
    x.applies item policy includeDisabled true = true := by
  obtain ⟨hsuits, hallowed⟩ := Bool.and_eq_true_iff.mp h
  refine Bool.and_eq_true_iff.mpr ⟨hsuits, ?_⟩
  rw [Bool.or_eq_true_iff] at hallowed ⊢
  exact hallowed.imp_right x.permitted_of_internet

/-- Selection sees the settings only where it asks whether a provider applies and where it
stands. -/
theorem select_congr
    (happlies : ∀ x ∈ providers, x.applies item p includeDisabled forceInternet =
      x.applies item q includeDisabled forceInternet)
    (hplace : ∀ x ∈ providers, x.place item p = x.place item q) :
    select providers item p includeDisabled forceInternet =
      select providers item q includeDisabled forceInternet :=
  placed_congr happlies hplace

/-- Which providers are selected does not depend on where they stand. -/
theorem select_perm (happlies : ∀ x ∈ providers,
    x.applies item p includeDisabled forceInternet =
      x.applies item q includeDisabled forceInternet) :
    (select providers item p includeDisabled forceInternet).Perm
      (select providers item q includeDisabled forceInternet) := by
  unfold select
  rw [List.filter_congr happlies]
  exact (List.mergeSort_perm _ _).trans (List.mergeSort_perm _ _).symm

section Block

variable {block : TypeBlock} (hp : p.library.block? item.kind = some block)
  (hq : q.library.block? item.kind = some block) (x : MetadataProvider σ)

include hp hq

theorem applies_of_block : x.applies item p includeDisabled forceInternet =
    x.applies item q includeDisabled forceInternet := by
  unfold applies permitted Policy.enablesMetadata
  rw [Policy.enables_of_block hp, Policy.enables_of_block hq]

/-- The block has no order of local readers. -/
theorem place_of_block (h : x.source ≠ .disk ∨ p.readerOrder = q.readerOrder) :
    x.place item p = x.place item q := by
  unfold place
  rw [Policy.metadataOrder_of_block hp, Policy.metadataOrder_of_block hq]
  cases hsource : x.source with
  | disk => rw [h.resolve_left (not_not_intro hsource)]
  | remote => rfl
  | forced => rfl
  | custom => rfl

end Block

end MetadataProvider

namespace Policy

/-- Including what is disabled, fetching all images again and forcing the internet only add
providers, in between those that are selected anyway. -/
theorem relaxing_only_adds (policy : Policy) (item : Item) (pictures : List (ImageProvider σ))
    (sources : List (MetadataProvider σ)) (mode : RefreshMode)
    (includeDisabled forceInternet : Bool) :
    (ImageProvider.select pictures item policy mode false).Sublist
        (ImageProvider.select pictures item policy mode true) ∧
      (ImageProvider.select pictures item policy mode includeDisabled).Sublist
        (ImageProvider.select pictures item policy .full includeDisabled) ∧
      (MetadataProvider.select sources item policy false false).Sublist
        (MetadataProvider.select sources item policy false true) ∧
      (MetadataProvider.select sources item policy false true).Sublist
        (MetadataProvider.select sources item policy true forceInternet) := by
  refine ⟨?_, ?_, ?_, ?_⟩
  · exact ImageProvider.select_sublist fun x => x.applies_of_disabled
  · exact ImageProvider.select_sublist fun x => x.applies_full
  · exact MetadataProvider.select_sublist fun x => x.applies_of_internet
  · exact MetadataProvider.select_sublist fun x => x.applies_of_disabled

/-- Two settings that have the block for the kind of an item in common, and perhaps nothing
else, select the same image providers in the same order, and the same metadata providers.
Those that are not local stand in the same order, and all of them do if the libraries set
the same order of local readers. -/
theorem block_is_authoritative {p q : Policy} {item : Item} {block : TypeBlock}
    (hp : p.library.block? item.kind = some block) (hq : q.library.block? item.kind = some block)
    (pictures : List (ImageProvider σ)) (sources : List (MetadataProvider σ))
    (mode : RefreshMode) (includeDisabled forceInternet : Bool) :
    ImageProvider.select pictures item p mode includeDisabled =
        ImageProvider.select pictures item q mode includeDisabled ∧
      (MetadataProvider.select sources item p includeDisabled forceInternet).Perm
        (MetadataProvider.select sources item q includeDisabled forceInternet) ∧
      (MetadataProvider.select sources item p includeDisabled forceInternet).filter
          (·.source != .disk) =
        (MetadataProvider.select sources item q includeDisabled forceInternet).filter
          (·.source != .disk) ∧
      ∀ order, p.library.readerOrder = some order → q.library.readerOrder = some order →
        MetadataProvider.select sources item p includeDisabled forceInternet =
          MetadataProvider.select sources item q includeDisabled forceInternet := by
  refine ⟨?_, ?_, ?_, fun order horderP horderQ => ?_⟩
  · exact ImageProvider.select_congr (fun x _ => x.applies_of_block hp hq)
      fun x _ => x.place_of_block hp hq
  · exact MetadataProvider.select_perm fun x _ => x.applies_of_block hp hq
  · rw [MetadataProvider.filter_select, MetadataProvider.filter_select]
    refine MetadataProvider.select_congr (fun x _ => x.applies_of_block hp hq) fun x hx => ?_
    have hremote : x.source ≠ .disk := bne_iff_ne.mp (List.mem_filter.mp hx).2
    exact x.place_of_block hp hq (Or.inl hremote)
  · have horders : p.readerOrder = q.readerOrder := by
      unfold readerOrder
      rw [horderP, horderQ, Option.getD_some, Option.getD_some]
    exact MetadataProvider.select_congr (fun x _ => x.applies_of_block hp hq)
      fun x _ => x.place_of_block hp hq (Or.inr horders)

end Policy

/-! ## A library without internet -/

namespace Rehearsal

/-- The block for films of a library. -/
def filmBlock : TypeBlock := ⟨.movie, ["Catalogue"], [], [], []⟩

/-- A library of films in which the local reader comes first, with internet or without. -/
def filmLibrary (internet : Bool) : LibraryOptions :=
  { LibraryOptions.standard with
    internet := internet, readerOrder := some ["Nfo"], blocks := [filmBlock] }

/-- Nothing is disabled and nothing is ordered globally. -/
def permissive : Policy := ⟨filmLibrary true, .empty .movie⟩

/-- There is no internet, the one fetcher is disabled globally and the reader is not the first
in the global order. -/
def restrictive : Policy where
  library := filmLibrary false
  kind := { KindOptions.empty .movie with
    disabledMetadataFetchers := ["Catalogue"]
    metadataFetcherOrder := ["Catalogue"]
    readerOrder := ["Xml", "Nfo"] }

end Rehearsal

open Rehearsal

/-- The fetcher that the block names is consulted, although there is no internet and it is
disabled globally. -/
theorem Policy.named_fetcher_selected :
    permissive.library.block? film.kind = some filmBlock ∧
      restrictive.library.block? film.kind = some filmBlock ∧
      MetadataProvider.select [reader false, catalogue] film restrictive false false =
        [reader false, catalogue] := by
  have hopen : permissive.library.block? film.kind = some filmBlock := by decide
  have hclosed : restrictive.library.block? film.kind = some filmBlock := by decide
  have hsame := (block_is_authoritative hopen hclosed [] [reader false, catalogue] .full false
    false).2.2.2 ["Nfo"] rfl rfl
  refine ⟨hopen, hclosed, ?_⟩
  rw [← hsame]
  exact MetadataProvider.select_of_ordered (by decide) (by decide)

end MediaRefresh
