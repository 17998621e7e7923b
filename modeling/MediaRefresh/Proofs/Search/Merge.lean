import MediaRefresh.Proofs.Item.ExternalIds
import MediaRefresh.Proofs.Search.Placement

/-!
# Search: what a merged list keeps

Once a hit has an entry, the entry only grows: it keeps its place, what it tells and its ids,
and so everything that shared an id with it goes on doing so.  An entry shows the first image
among the hits that it is made of.
-/

set_option autoImplicit false

namespace MediaRefresh

namespace SearchHit

variable {kept hits more : List SearchHit} {hit entry later : SearchHit} {i j : Nat}

/-! ## Entries grow -/

/-- An entry later on: what it tells stays, and ids are only added. -/
structure Grown (entry later : SearchHit) : Prop where
  name : later.name = entry.name
  productionYear : later.productionYear = entry.productionYear
  premiereDate : later.premiereDate = entry.premiereDate
  overview : later.overview = entry.overview
  provider : later.provider = entry.provider
  entries : entry.externalIds.entries ⊆ later.externalIds.entries
  ids : ∀ key id, entry.externalIds.get key = some id → later.externalIds.get key = some id
  image : entry.showsImage = true → later.imageUrl = entry.imageUrl

protected theorem Grown.refl (entry : SearchHit) : Grown entry entry :=
  ⟨rfl, rfl, rfl, rfl, rfl, fun _ he => he, fun _ _ h => h, fun _ => rfl⟩

theorem showsImage_of_imageUrl_eq (h : later.imageUrl = entry.imageUrl) :
    later.showsImage = entry.showsImage := by
  unfold showsImage
  rw [h]

theorem Grown.absorb (h : Grown entry later) (hit : SearchHit) :
    Grown entry (later.absorb hit) where
  name := h.name
  productionYear := h.productionYear
  premiereDate := h.premiereDate
  overview := h.overview
  provider := h.provider
  entries _ he := ExternalIds.subset_mergeMissing _ _ (h.entries he)
  ids key id hid := by
    have hlater := h.ids key id hid
    have hget := ExternalIds.get_mergeMissing later.externalIds hit.externalIds key
    rw [if_pos (ExternalIds.contains_of_get hlater), hlater] at hget
    exact hget
  image hshows := by
    have hurl := h.image hshows
    unfold SearchHit.absorb
    rw [if_pos (by rw [showsImage_of_imageUrl_eq hurl, hshows]), hurl]

theorem grown_foldl_absorb (entry : SearchHit) (hits : List SearchHit) :
    Grown entry (hits.foldl absorb entry) :=
  List.foldlRecOn hits _ (.refl entry) fun _ h hit _ => h.absorb hit

/-- An entry keeps sharing an id with a hit. -/
theorem Grown.sharesId (h : Grown entry later) (hshares : entry.sharesId hit = true) :
    later.sharesId hit = true := by
  unfold SearchHit.sharesId at hshares ⊢
  rw [ExternalIds.sharesAny_iff] at hshares ⊢
  obtain ⟨e, he, id, hid, hsame⟩ := hshares
  exact ⟨e, he, id, h.ids e.1 id hid, hsame⟩

theorem members_append (hits more : List SearchHit) (j : Nat) :
    ∃ extra, members (hits ++ more) j = members hits j ++ extra := by
  induction more using List.reverseRecOn with
  | nil => exact ⟨[], by simp⟩
  | append_singleton more hit ih =>
    obtain ⟨extra, hextra⟩ := ih
    rw [← List.append_assoc, members_append_singleton, hextra, List.append_assoc]
    exact ⟨_, rfl⟩

theorem united_append (more : List SearchHit) (h : united hits = some entry) :
    united (hits ++ more) = some (more.foldl absorb entry) := by
  cases hits with
  | nil => cases h
  | cons first rest =>
    obtain rfl := Option.some.inj h
    exact congrArg some List.foldl_append

/-- More hits leave every entry in its place, grown. -/
theorem grown_of_append (more : List SearchHit) (h : (mergeAll hits)[j]? = some entry) :
    ∃ later, (mergeAll (hits ++ more))[j]? = some later ∧ Grown entry later := by
  obtain ⟨extra, hextra⟩ := members_append hits more j
  rw [getElem?_mergeAll] at h
  refine ⟨extra.foldl absorb entry, ?_, grown_foldl_absorb entry extra⟩
  rw [getElem?_mergeAll, hextra, united_append extra h]

theorem grown_of_standing (h : (standing hits i)[j]? = some entry) :
    ∃ later, (mergeAll hits)[j]? = some later ∧ Grown entry later := by
  have hgrown := grown_of_append (hits.drop i) h
  rw [List.take_append_drop] at hgrown
  exact hgrown

/-! ## Images -/

/-- The address of the image that a hit shows, if it shows one. -/
def shownImage? (hit : SearchHit) : Option String := hit.imageUrl.filter fun u => !Text.blank u

theorem showsImage_eq_isSome (hit : SearchHit) : hit.showsImage = hit.shownImage?.isSome := by
  unfold showsImage shownImage?
  cases hit.imageUrl with
  | none => rfl
  | some u => cases hblank : Text.blank u <;> simp [hblank]

theorem shownImage?_absorb (entry hit : SearchHit) :
    (entry.absorb hit).shownImage? = entry.shownImage?.or hit.shownImage? := by
  have hurl : (entry.absorb hit).imageUrl =
      if entry.showsImage then entry.imageUrl else hit.imageUrl := rfl
  rw [showsImage_eq_isSome] at hurl
  cases hshown : entry.shownImage? with
  | none =>
    rw [hshown] at hurl
    rw [Option.none_or]
    exact congrArg (Option.filter fun u => !Text.blank u) hurl
  | some url =>
    rw [hshown] at hurl
    rw [Option.some_or, ← hshown]
    exact congrArg (Option.filter fun u => !Text.blank u) hurl

/-- Hits made one show the first image that one of them shows. -/
theorem shownImage?_united (h : united hits = some entry) :
    entry.shownImage? = hits.findSome? shownImage? := by
  induction hits using List.reverseRecOn generalizing entry with
  | nil => cases h
  | append_singleton hits hit ih =>
    rw [united_append_singleton] at h
    obtain rfl := Option.some.inj h
    rw [List.findSome?_append, List.findSome?_singleton]
    cases hbefore : united hits with
    | none =>
      rw [united_eq_none_iff.mp hbefore]
      rfl
    | some before =>
      rw [← ih hbefore]
      exact shownImage?_absorb before hit

/-! ## Batches -/

/-- The hits of all batches in order, each stamped with the provider that found it. -/
abbrev results (batches : List (String × List SearchHit)) : List SearchHit :=
  batches.flatMap stamped

/-- The hits of all batches in order, each beside the name of the provider that found it. -/
def offers (batches : List (String × List SearchHit)) : List (String × SearchHit) :=
  batches.flatMap fun batch => batch.2.map fun hit => (batch.1, hit)

/-- An entry tells what an offered hit tells, names its provider and has all its ids. -/
structure Represents (offer : String × SearchHit) (entry : SearchHit) : Prop where
  name : entry.name = offer.2.name
  productionYear : entry.productionYear = offer.2.productionYear
  premiereDate : entry.premiereDate = offer.2.premiereDate
  overview : entry.overview = offer.2.overview
  provider : entry.provider = some offer.1
  entries : offer.2.externalIds.entries ⊆ entry.externalIds.entries

/-- The hit at `i` was folded into the entry at `j`: the first that shared an id with it when
its turn came, and one that shares an id with it in the end. -/
structure FoldedInto (hits : List SearchHit) (i j : Nat) (hit kept entry : SearchHit) : Prop where
  home : home? hits i = some j
  met : (standing hits i)[j]? = some kept
  shared : kept.sharesId hit = true
  first : ∀ k < j, ∀ other, (standing hits i)[k]? = some other → other.sharesId hit = false
  absorbed : (standing hits (i + 1))[j]? = some (kept.absorb hit)
  stands : (mergeAll hits)[j]? = some entry
  shares : entry.sharesId hit = true

theorem results_eq_map (batches : List (String × List SearchHit)) :
    results batches = (offers batches).map fun offer =>
      { offer.2 with provider := some offer.1 } := by
  unfold results offers stamped
  rw [List.map_flatMap]
  simp [Function.comp_def]

theorem getElem?_offers {batches : List (String × List SearchHit)}
    (h : (results batches)[i]? = some hit) :
    ∃ offer, (offers batches)[i]? = some offer ∧
      hit = { offer.2 with provider := some offer.1 } := by
  rw [results_eq_map, List.getElem?_map, Option.map_eq_some_iff] at h
  obtain ⟨offer, hoffer, hhit⟩ := h
  exact ⟨offer, hoffer, hhit.symm⟩

theorem Grown.represents {offer : String × SearchHit}
    (h : Grown { offer.2 with provider := some offer.1 } entry) : Represents offer entry :=
  ⟨h.name, h.productionYear, h.premiereDate, h.overview, h.provider, h.entries⟩

theorem mem_founders_iff (h : hits[i]? = some hit) :
    i ∈ founders hits ↔ place hit (standing hits i) = (standing hits i).length := by
  unfold founders
  rw [List.mem_filter, List.mem_range, place_eq_length_iff, h]
  exact and_iff_right (List.getElem?_eq_some_iff.mp h).1

/-- The entry at a place has grown from its founder. -/
theorem grown_of_founder (h : (founders hits)[j]? = some i) :
    ∃ hit entry, hits[i]? = some hit ∧ (mergeAll hits)[j]? = some entry ∧ Grown hit entry := by
  obtain ⟨-, hit, rest, hhit, hmembers⟩ := members_of_founder h
  refine ⟨hit, rest.foldl absorb hit, hhit, ?_, grown_foldl_absorb hit rest⟩
  rw [getElem?_mergeAll, hmembers]
  rfl

/-- A hit that founds no entry is folded into one. -/
theorem foldedInto_of_notMem (hhit : hits[i]? = some hit) (h : i ∉ founders hits) :
    ∃ j kept entry, FoldedInto hits i j hit kept entry := by
  have hplace : place hit (standing hits i) < (standing hits i).length := by
    have hle := place_le_length hit (standing hits i)
    have hne : place hit (standing hits i) ≠ (standing hits i).length := by
      intro heq
      exact h ((mem_founders_iff hhit).mpr heq)
    omega
  have hmet := List.getElem?_eq_getElem hplace
  obtain ⟨entry, hstands, hgrown⟩ := grown_of_standing hmet
  have hshared := sharesId_of_place hmet
  refine ⟨place hit (standing hits i), _, entry, ?_, hmet, hshared, ?_, ?_, hstands,
    hgrown.sharesId hshared⟩
  · unfold home?
    rw [hhit]
    rfl
  · intro k hk other hother
    exact not_sharesId_of_lt_place hk hother
  · rw [standing_succ hhit, getElem?_keep, if_pos rfl, hmet]
    rfl

/-- The entries of a merged list stand for the results that shared no id with an entry before
them, one for each and in their order.  Every other result was folded into the first entry
that shared an id with it, and still shares one with it.  An entry shows the first image of
all its results, and more batches leave every entry in its place, grown. -/
theorem merge_keeps_and_folds (batches more : List (String × List SearchHit)) :
    (founders (results batches)).length = (merge batches).length ∧
      (∀ j i, (founders (results batches))[j]? = some i →
        home? (results batches) i = some j ∧
        ∃ offer entry, (offers batches)[i]? = some offer ∧ (merge batches)[j]? = some entry ∧
          Represents offer entry) ∧
      (∀ i hit, (results batches)[i]? = some hit → i ∉ founders (results batches) →
        ∃ j kept entry, FoldedInto (results batches) i j hit kept entry) ∧
      (∀ (j : Nat) entry url, (merge batches)[j]? = some entry →
        (members (results batches) j).findSome? shownImage? = some url →
        entry.imageUrl = some url) ∧
      ∀ (j : Nat) entry, (merge batches)[j]? = some entry →
        ∃ later, (merge (batches ++ more))[j]? = some later ∧ Grown entry later := by
  have hmerge : merge batches = mergeAll (results batches) := rfl
  refine ⟨length_founders _, ?_, ?_, ?_, ?_⟩
  · intro j i hfounder
    obtain ⟨hit, entry, hhit, hentry, hgrown⟩ := grown_of_founder hfounder
    obtain ⟨offer, hoffer, rfl⟩ := getElem?_offers hhit
    exact ⟨(members_of_founder hfounder).1, offer, entry, hoffer, hentry, hgrown.represents⟩
  · intro i hit hhit hfounds
    exact foldedInto_of_notMem hhit hfounds
  · intro j entry url hentry hurl
    rw [hmerge, getElem?_mergeAll] at hentry
    rw [← shownImage?_united hentry] at hurl
    exact (Option.filter_eq_some_iff.mp hurl).1
  · intro j entry hentry
    have hmore : merge (batches ++ more) = mergeAll (results batches ++ results more) :=
      congrArg mergeAll List.flatMap_append
    rw [hmore]
    exact grown_of_append _ hentry

end SearchHit

end MediaRefresh
