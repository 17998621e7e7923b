import MediaRefresh.Proofs.Image.Report
import MediaRefresh.Proofs.Provider.Settings

/-!
# Providers: the order in which they are consulted

A provider is placed by the first position of its name in the order that is in force for its
source.  A name that is not there is given a fallback, which for metadata comes after every
position; for images it is a fixed place, so that a name far back in a long order comes after
providers that are not named at all.  What ties stays in the order of registration.
-/

set_option autoImplicit false

namespace MediaRefresh

variable {σ : Type}

/-! ## Positions and places -/

/-- The place of a name with a position in an order, if it has one. -/
def placeAt (fallback : Int) : Option Nat → Int
  | some n => if (n : Int) ≤ lastPlace then n else fallback
  | none => fallback

theorem configuredPlace_eq (order : List String) (name : String) (fallback : Int) :
    configuredPlace order name fallback =
      placeAt fallback (order.findIdx? (Text.same · name)) := by
  unfold configuredPlace placeAt
  cases order.findIdx? (Text.same · name) with
  | none => rfl
  | some n => rfl

theorem placeAt_of_le {fallback : Int} {n : Nat} (h : (n : Int) ≤ lastPlace) :
    placeAt fallback (some n) = n := if_pos h

theorem placeAt_none (fallback : Int) : placeAt fallback none = fallback := rfl

theorem placedBefore_eq_false {a b : Int × Int} :
    placedBefore b a = false ↔ a.1 < b.1 ∨ a.1 = b.1 ∧ a.2 < b.2 := by
  rw [Bool.eq_false_iff]
  simp only [placedBefore, ne_eq, Bool.or_eq_true, Bool.and_eq_true, decide_eq_true_eq,
    beq_iff_eq]
  omega

theorem placedBefore_antisymm {a b : Int × Int} (hab : placedBefore a b = true)
    (hba : placedBefore b a = true) : a = b := by
  simp only [placedBefore, Bool.or_eq_true, Bool.and_eq_true, decide_eq_true_eq, beq_iff_eq]
    at hab hba
  exact Prod.ext (by omega) (by omega)

theorem ranked_placed {α : Type} {place : α → Int × Int} {before : α → α → Prop}
    (h : ∀ a b, before a b → (place a).1 < (place b).1 ∨
      (place a).1 = (place b).1 ∧ (place a).2 < (place b).2) (l : List α) :
    Ranked before (l.mergeSort fun a b => placedBefore (place a) (place b)) :=
  ranked_mergeSort placed_trans placed_total
    (fun a b hbefore => placedBefore_eq_false.mpr (h a b hbefore)) l

/-! ## Image providers -/

namespace ImageProvider

variable {providers : List (ImageProvider σ)} {item : Item} {policy : Policy}

/-- The first position of the provider's name in the order of fetchers.  Local providers are
not looked up there. -/
def position? (p : ImageProvider σ) (item : Item) (policy : Policy) : Option Nat :=
  match p.source with
  | .disk => none
  | .remote | .dynamic => (policy.imageOrder item.kind).findIdx? (Text.same · p.name)

theorem place_eq (p : ImageProvider σ) :
    p.place item policy = (placeAt unplacedImage (p.position? item policy), p.order) := by
  unfold place position?
  rw [configuredPlace_eq]
  cases p.source with
  | disk => rfl
  | remote => rfl
  | dynamic => rfl

/-- Of the image providers that are selected, which are those that apply, those with one of
the first hundred positions stand before the local ones and those that are not named.
Providers that are named stand in the order of their positions, also those further back, which
stand behind all others. -/
theorem named_images_ranked (providers : List (ImageProvider σ)) (item : Item) (policy : Policy)
    (mode : RefreshMode) (includeDisabled : Bool) :
    (select providers item policy mode includeDisabled).Perm
      (providers.filter fun p => p.applies item policy mode includeDisabled) ∧
    Ranked (fun a b : ImageProvider σ =>
        (∃ n : Nat, a.position? item policy = some n ∧ (n : Int) < unplacedImage) ∧
          b.position? item policy = none)
      (select providers item policy mode includeDisabled) ∧
    Ranked (fun a b : ImageProvider σ => ∃ n k : Nat, a.position? item policy = some n ∧
        b.position? item policy = some k ∧ n < k ∧ (k : Int) ≤ lastPlace)
      (select providers item policy mode includeDisabled) ∧
    Ranked (fun a b : ImageProvider σ => a.position? item policy = none ∧
        ∃ n : Nat, b.position? item policy = some n ∧ unplacedImage < n ∧ (n : Int) ≤ lastPlace)
      (select providers item policy mode includeDisabled) := by
  have hlast : unplacedImage < lastPlace := by decide
  refine ⟨List.mergeSort_perm _ _, ranked_placed ?_ _, ranked_placed ?_ _, ranked_placed ?_ _⟩
  · rintro a b ⟨⟨n, hn, hearly⟩, hb⟩
    rw [place_eq, place_eq, hn, hb, placeAt_of_le (by omega), placeAt_none]
    exact Or.inl hearly
  · rintro a b ⟨n, k, hn, hk, hlt, hle⟩
    rw [place_eq, place_eq, hn, hk, placeAt_of_le (by omega), placeAt_of_le hle]
    exact Or.inl (Int.ofNat_lt.mpr hlt)
  · rintro a b ⟨ha, n, hn, hlate, hle⟩
    rw [place_eq, place_eq, ha, hn, placeAt_of_le hle, placeAt_none]
    exact Or.inl hlate

end ImageProvider

/-! ## Metadata providers -/

namespace MetadataProvider

variable {providers : List (MetadataProvider σ)} {item : Item} {policy : Policy}
  {includeDisabled forceInternet : Bool}

/-- The first position of the provider's name in the order for its source: that of readers for
local providers, that of fetchers for remote ones, and none for the others. -/
def position? (p : MetadataProvider σ) (item : Item) (policy : Policy) : Option Nat :=
  match p.source with
  | .disk => policy.readerOrder.findIdx? (Text.same · p.name)
  | .remote => (policy.metadataOrder item.kind).findIdx? (Text.same · p.name)
  | .forced | .custom => none

/-- Whether nothing but their registration tells two providers apart. -/
def ties (item : Item) (policy : Policy) (p q : MetadataProvider σ) : Bool :=
  p.position? item policy == q.position? item policy && p.order == q.order

theorem place_eq (p : MetadataProvider σ) :
    p.place item policy = (placeAt lastPlace (p.position? item policy), p.order) := by
  unfold place position?
  rw [configuredPlace_eq, configuredPlace_eq]
  cases p.source with
  | disk => rfl
  | remote => rfl
  | forced => rfl
  | custom => rfl

section ShortOrders

variable (hreaders : (policy.readerOrder.length : Int) < lastPlace)
  (hfetchers : ((policy.metadataOrder item.kind).length : Int) < lastPlace)

include hreaders hfetchers

theorem position?_lt {p : MetadataProvider σ} {n : Nat} (h : p.position? item policy = some n) :
    (n : Int) < lastPlace := by
  have hin {order : List String} (horder : order.findIdx? (Text.same · p.name) = some n) :
      n < order.length := (List.findIdx?_eq_some_iff_getElem.mp horder).1
  unfold position? at h
  cases hsource : p.source with
  | disk => rw [hsource] at h; have := hin h; omega
  | remote => rw [hsource] at h; have := hin h; omega
  | forced => rw [hsource] at h; cases h
  | custom => rw [hsource] at h; cases h

theorem placeAt_position {p : MetadataProvider σ} {n : Nat}
    (h : p.position? item policy = some n) :
    placeAt lastPlace (p.position? item policy) = n := by
  rw [h, placeAt_of_le (Int.le_of_lt (position?_lt hreaders hfetchers h))]

/-- Where orders are short, no position is the fallback. -/
theorem position?_eq_of_placeAt {p q : MetadataProvider σ}
    (h : placeAt lastPlace (p.position? item policy) =
      placeAt lastPlace (q.position? item policy)) :
    p.position? item policy = q.position? item policy := by
  cases hp : p.position? item policy with
  | none =>
    cases hq : q.position? item policy with
    | none => rfl
    | some k =>
      have hlt := position?_lt hreaders hfetchers hq
      rw [placeAt_position hreaders hfetchers hq, hp, placeAt_none] at h
      omega
  | some n =>
    have hn := position?_lt hreaders hfetchers hp
    rw [placeAt_position hreaders hfetchers hp] at h
    cases hq : q.position? item policy with
    | none =>
      rw [hq, placeAt_none] at h
      omega
    | some k =>
      rw [placeAt_position hreaders hfetchers hq] at h
      rw [Int.ofNat_inj.mp h]

end ShortOrders

/-- How selected providers stand that are eligible for an item. -/
structure Arranged (item : Item) (policy : Policy)
    (eligible selected : List (MetadataProvider σ)) : Prop where
  /-- each of them is there as often as it is registered -/
  complete : selected.Perm eligible
  /-- those that are named, by the positions in their own orders -/
  by_position : Ranked (fun a b => ∃ n k, a.position? item policy = some n ∧
    b.position? item policy = some k ∧ n < k) selected
  /-- and before those that are not -/
  named_first : Ranked (fun a b => (∃ n, a.position? item policy = some n) ∧
    b.position? item policy = none) selected
  /-- then by their own order -/
  by_order : Ranked (fun a b => a.position? item policy = b.position? item policy ∧
    a.order < b.order) selected
  /-- and then as they are registered -/
  as_registered : ∀ p, selected.filter (ties item policy p) = eligible.filter (ties item policy p)

section ShortOrders

variable (hreaders : (policy.readerOrder.length : Int) < lastPlace)
  (hfetchers : ((policy.metadataOrder item.kind).length : Int) < lastPlace)

include hreaders hfetchers

theorem arranged_mergeSort (eligible : List (MetadataProvider σ)) :
    Arranged item policy eligible (eligible.mergeSort fun a b =>
      placedBefore (a.place item policy) (b.place item policy)) where
  complete := List.mergeSort_perm _ _
  by_position := by
    refine ranked_placed ?_ eligible
    rintro a b ⟨n, k, hn, hk, hlt⟩
    rw [place_eq, place_eq, placeAt_position hreaders hfetchers hn,
      placeAt_position hreaders hfetchers hk]
    exact Or.inl (Int.ofNat_lt.mpr hlt)
  named_first := by
    refine ranked_placed ?_ eligible
    rintro a b ⟨⟨n, hn⟩, hb⟩
    rw [place_eq, place_eq, placeAt_position hreaders hfetchers hn, hb, placeAt_none]
    exact Or.inl (position?_lt hreaders hfetchers hn)
  by_order := by
    refine ranked_placed ?_ eligible
    rintro a b ⟨hsame, hlt⟩
    rw [place_eq, place_eq, hsame]
    exact Or.inr ⟨rfl, hlt⟩
  as_registered p := by
    refine filter_mergeSort_of_tied placed_trans placed_total (fun a b ha hb => ?_) eligible
    simp only [ties, Bool.and_eq_true, beq_iff_eq] at ha hb
    rw [place_eq, place_eq, ← ha.1, ← hb.1, ← ha.2, ← hb.2]
    simp [placedBefore]

/-- Providers of which no two tie are selected in the same order, however they are
registered. -/
theorem select_eq_of_perm {others : List (MetadataProvider σ)} (hperm : others.Perm providers)
    (huntied : (providers.filter fun p =>
      p.applies item policy includeDisabled forceInternet).Pairwise fun a b =>
        ties item policy a b = false) :
    select others item policy includeDisabled forceInternet =
      select providers item policy includeDisabled forceInternet := by
  unfold select
  refine mergeSort_eq_of_perm placed_trans placed_total (hperm.filter _)
    (huntied.imp fun {a b} hab hboth => ?_)
  have hplace := placedBefore_antisymm hboth.1 hboth.2
  rw [place_eq, place_eq, Prod.mk.injEq] at hplace
  rw [ties, position?_eq_of_placeAt hreaders hfetchers hplace.1, hplace.2] at hab
  simp at hab

end ShortOrders

/-- The metadata providers that are selected are the eligible ones, each as often as it is
registered: those that the orders for their sources name, by position, then the others, each
time by their own order and then as registered.  Where no two of them tie, the order of
registration makes no difference. -/
theorem metadata_arranged (providers : List (MetadataProvider σ)) (item : Item) (policy : Policy)
    (includeDisabled forceInternet : Bool)
    (hreaders : (policy.readerOrder.length : Int) < lastPlace)
    (hfetchers : ((policy.metadataOrder item.kind).length : Int) < lastPlace) :
    Arranged item policy
        (providers.filter fun p => p.applies item policy includeDisabled forceInternet)
        (select providers item policy includeDisabled forceInternet) ∧
      ∀ others : List (MetadataProvider σ), others.Perm providers →
        ((providers.filter fun p =>
          p.applies item policy includeDisabled forceInternet).Pairwise fun a b =>
            ties item policy a b = false) →
        select others item policy includeDisabled forceInternet =
          select providers item policy includeDisabled forceInternet :=
  ⟨arranged_mergeSort hreaders hfetchers _,
    fun _ hperm huntied => select_eq_of_perm hreaders hfetchers hperm huntied⟩

end MetadataProvider

/-! ## A long order, and two ways to register -/

namespace Rehearsal

/-- A local provider of images. -/
def covers : ImageProvider Stage := { frames [] with name := "Covers", source := .disk }

/-- The order of fetchers names the frames behind a hundred and one others. -/
def longOrder : Policy where
  library := .standard
  kind := { KindOptions.empty .movie with
    imageFetcherOrder := List.replicate 101 "Other" ++ ["Frames"] }

theorem longOrder_position : (frames []).position? film longOrder = some 101 := by
  have hother : Text.same "Other" "Frames" = false := by decide
  have hsearch : (frames []).position? film longOrder =
      (List.replicate 101 "Other" ++ ["Frames"]).findIdx? (Text.same · "Frames") := rfl
  rw [hsearch, List.findIdx?_append, List.findIdx?_replicate, hother, List.findIdx?_cons,
    Text.same_refl]
  rfl

end Rehearsal

open Rehearsal

/-- A fetcher that is named far back in a long order comes behind a local provider. -/
theorem ImageProvider.late_fetcher_behind_local :
    ¬ ∀ (providers : List (ImageProvider Stage)) (item : Item) (policy : Policy)
      (mode : RefreshMode) (includeDisabled : Bool),
      Ranked (fun a b : ImageProvider Stage => (∃ n, a.position? item policy = some n) ∧
          b.position? item policy = none)
        (select providers item policy mode includeDisabled) := by
  intro h
  have hplace : (frames []).place film longOrder = (101, 0) := by
    rw [place_eq, longOrder_position]
    rfl
  have hselected : select [covers, frames []] film longOrder .standard false =
      [covers, frames []] := by
    refine select_of_ordered ?_ (List.pairwise_pair.mpr ?_)
    · rw [List.forall_mem_cons, List.forall_mem_singleton]
      exact ⟨rfl, rfl⟩
    · rw [hplace]
      decide
  have hranked := h [covers, frames []] film longOrder .standard false 1 0 (frames []) covers
  rw [hselected] at hranked
  exact absurd (hranked rfl rfl ⟨⟨101, longOrder_position⟩, rfl⟩) (by decide)

/-- The reader comes before the fetcher, which no order names, also where the fetcher is
registered first. -/
theorem MetadataProvider.reader_before_fetcher :
    (restrictive.readerOrder.length : Int) < lastPlace ∧
      ((restrictive.metadataOrder film.kind).length : Int) < lastPlace ∧
      select [catalogue, reader false] film restrictive false false =
        [reader false, catalogue] := by
  have hreaders : (restrictive.readerOrder.length : Int) < lastPlace := by decide
  have hfetchers : ((restrictive.metadataOrder film.kind).length : Int) < lastPlace := by decide
  refine ⟨hreaders, hfetchers, ?_⟩
  rw [(metadata_arranged [reader false, catalogue] film restrictive false false hreaders
    hfetchers).2 _ (List.Perm.swap _ _ _) (by decide)]
  exact select_of_ordered (by decide) (by decide)

end MediaRefresh
