import MediaRefresh.Proofs.Order.StableSort
import MediaRefresh.Provider.Selection

/-!
# Providers: what is selected

The selected providers are those that apply, so that only these and their order count:
providers that do not apply may as well be missing.  Which sources apply to locked and to
owned items is the same in every library.
-/

set_option autoImplicit false

namespace MediaRefresh

variable {σ : Type}

/-! ## Places -/

section Placed

variable {α : Type} {place : α → Int × Int}

theorem placed_trans (a b c : α) (hab : placedBefore (place a) (place b) = true)
    (hbc : placedBefore (place b) (place c) = true) :
    placedBefore (place a) (place c) = true := by
  simp only [placedBefore, Bool.or_eq_true, Bool.and_eq_true, decide_eq_true_eq, beq_iff_eq]
    at hab hbc ⊢
  omega

theorem placed_total (a b : α) :
    (placedBefore (place a) (place b) || placedBefore (place b) (place a)) = true := by
  simp only [placedBefore, Bool.or_eq_true, Bool.and_eq_true, decide_eq_true_eq, beq_iff_eq]
  omega

end Placed

theorem filter_placed {α : Type} (place : α → Int × Int) (keep : α → Bool) (l : List α) :
    (l.mergeSort fun a b => placedBefore (place a) (place b)).filter keep =
      (l.filter keep).mergeSort fun a b => placedBefore (place a) (place b) :=
  filter_mergeSort_comm placed_trans placed_total keep l

namespace MetadataProvider

variable {providers : List (MetadataProvider σ)} {item : Item} {policy : Policy}
  {includeDisabled forceInternet : Bool}

theorem mem_select {p : MetadataProvider σ} :
    p ∈ select providers item policy includeDisabled forceInternet ↔
      p ∈ providers ∧ p.applies item policy includeDisabled forceInternet = true := by
  unfold select
  rw [List.mem_mergeSort, List.mem_filter]

/-- Providers that stand in order already are taken as they stand. -/
theorem select_of_ordered
    (happlies : ∀ p ∈ providers, p.applies item policy includeDisabled forceInternet = true)
    (hordered : providers.Pairwise fun a b =>
      placedBefore (a.place item policy) (b.place item policy) = true) :
    select providers item policy includeDisabled forceInternet = providers := by
  unfold select
  rw [List.filter_eq_self.mpr happlies, List.mergeSort_of_pairwise hordered]

/-- A change of the providers that selection does not see. -/
theorem select_map {τ : Type} {φ : MetadataProvider σ → MetadataProvider τ}
    (happlies : ∀ p, (φ p).applies item policy includeDisabled forceInternet =
      p.applies item policy includeDisabled forceInternet)
    (hplace : ∀ p, (φ p).place item policy = p.place item policy) :
    select (providers.map φ) item policy includeDisabled forceInternet =
      (select providers item policy includeDisabled forceInternet).map φ := by
  have hfilter : (fun p => p.applies item policy includeDisabled forceInternet) ∘ φ =
      fun p => p.applies item policy includeDisabled forceInternet := funext happlies
  unfold select
  rw [List.filter_map, hfilter, List.map_mergeSort]
  intro a _ b _
  rw [hplace, hplace]

/-- Providers that do not apply may as well be missing. -/
theorem select_filter {keep : MetadataProvider σ → Bool}
    (hkeep : ∀ p, p.applies item policy includeDisabled forceInternet = true → keep p = true) :
    select (providers.filter keep) item policy includeDisabled forceInternet =
      select providers item policy includeDisabled forceInternet := by
  unfold select
  rw [filter_filter_of_imp _ hkeep]

/-- Selection takes no notice of providers that are left out. -/
theorem filter_select (keep : MetadataProvider σ → Bool) :
    (select providers item policy includeDisabled forceInternet).filter keep =
      select (providers.filter keep) item policy includeDisabled forceInternet := by
  unfold select
  rw [filter_placed (fun p : MetadataProvider σ => p.place item policy), filter_filter_comm]

/-- Locked items are left to the local and the forced providers. -/
theorem source_of_locked (p : MetadataProvider σ)
    (h : p.applies item policy false false = true) (hlocked : item.locked = true) :
    (p.source == .disk || p.source == .forced) = true := by
  have hallowed := (Bool.and_eq_true_iff.mp (Bool.and_eq_true_iff.mp h).2).1
  simpa [hlocked] using hallowed

/-- Owned items follow their owner where their metadata is local or remote. -/
theorem source_of_owned (p : MetadataProvider σ)
    (h : p.applies item policy false false = true) (howned : item.isOwned = true) :
    (p.source == .forced || p.source == .custom) = true := by
  have hsuits := (Bool.and_eq_true_iff.mp (Bool.and_eq_true_iff.mp h).1).2
  rw [howned] at hsuits
  revert hsuits
  cases p.source <;> decide

end MetadataProvider

namespace ImageProvider

variable {providers : List (ImageProvider σ)} {item : Item} {policy : Policy} {mode : RefreshMode}
  {includeDisabled : Bool}

theorem mem_select {p : ImageProvider σ} :
    p ∈ select providers item policy mode includeDisabled ↔
      p ∈ providers ∧ p.applies item policy mode includeDisabled = true := by
  unfold select
  rw [List.mem_mergeSort, List.mem_filter]

/-- Providers that stand in order already are taken as they stand. -/
theorem select_of_ordered
    (happlies : ∀ p ∈ providers, p.applies item policy mode includeDisabled = true)
    (hordered : providers.Pairwise fun a b =>
      placedBefore (a.place item policy) (b.place item policy) = true) :
    select providers item policy mode includeDisabled = providers := by
  unfold select
  rw [List.filter_eq_self.mpr happlies, List.mergeSort_of_pairwise hordered]

/-- Providers that do not apply may as well be missing. -/
theorem select_filter {keep : ImageProvider σ → Bool}
    (hkeep : ∀ p, p.applies item policy mode includeDisabled = true → keep p = true) :
    select (providers.filter keep) item policy mode includeDisabled =
      select providers item policy mode includeDisabled := by
  unfold select
  rw [filter_filter_of_imp _ hkeep]

/-- Selection takes no notice of providers that are left out. -/
theorem filter_select (keep : ImageProvider σ → Bool) :
    (select providers item policy mode includeDisabled).filter keep =
      select (providers.filter keep) item policy mode includeDisabled := by
  unfold select
  rw [filter_placed (fun p : ImageProvider σ => p.place item policy), filter_filter_comm]

/-- Locked items are left to the local providers, unless all images are fetched again. -/
theorem source_of_locked (p : ImageProvider σ)
    (h : p.applies item policy mode false = true) (hlocked : item.locked = true)
    (hmode : mode ≠ .full) : p.source = .disk := by
  have hallowed := (Bool.and_eq_true_iff.mp (Bool.and_eq_true_iff.mp h).1).1
  simpa [hlocked, hmode] using hallowed

end ImageProvider

end MediaRefresh
