import MediaRefresh.Proofs.Search.Merge

/-!
# Search: which ids the entries of a merged list hold

Under a key an entry answers as the first of its hits that has anything under the key, so an
id is lost exactly where that hit has an empty one.  Two entries share an id exactly when a
hit carried it from the later one to the earlier: the hit shared an id with both and was
folded into the earlier one only.
-/

set_option autoImplicit false

namespace MediaRefresh

namespace ExternalIds

variable {key : String} {a b : ExternalIds}

/-- Both bags hold the same id under a key, key and id in any case. -/
def HaveInCommon (key : String) (a b : ExternalIds) : Prop :=
  ∃ e ∈ a.entries, ∃ f ∈ b.entries, Text.same e.1 key = true ∧ Text.same f.1 key = true ∧
    e.2 ≠ "" ∧ Text.same e.2 f.2 = true

/-- Both bags answer under a key with the same id in any case. -/
def AnswerAlike (key : String) (a b : ExternalIds) : Prop :=
  ∃ v w, a.get key = some v ∧ b.get key = some w ∧ Text.same v w = true

theorem Unambiguous.get_eq_some {e : String × String} (h : a.Unambiguous) (he : e ∈ a.entries)
    (hsame : Text.same e.1 key = true) (hid : e.2 ≠ "") : a.get key = some e.2 := by
  rw [← a.get_congr hsame]
  exact h.get_of_mem he hid

/-- Where keys are not ambiguous, what the bags hold is what they answer. -/
theorem haveInCommon_iff (ha : a.Unambiguous) (hb : b.Unambiguous) :
    HaveInCommon key a b ↔ AnswerAlike key a b := by
  constructor
  · rintro ⟨e, he, f, hf, hekey, hfkey, hid, hsame⟩
    exact ⟨e.2, f.2, ha.get_eq_some he hekey hid,
      hb.get_eq_some hf hfkey (Text.ne_empty_of_same hsame hid), hsame⟩
  · rintro ⟨v, w, hv, hw, hsame⟩
    obtain ⟨e, he, hekey, rfl, hid⟩ := exists_entry_of_get hv
    obtain ⟨f, hf, hfkey, rfl, -⟩ := exists_entry_of_get hw
    exact ⟨e, he, f, hf, hekey, hfkey, hid, hsame⟩

/-- Bags that answer alike share an id. -/
theorem AnswerAlike.sharesAny (h : AnswerAlike key a b) : a.sharesAny b = true := by
  obtain ⟨v, w, hv, hw, hsame⟩ := h
  obtain ⟨f, hf, hfkey, rfl, -⟩ := exists_entry_of_get hw
  rw [sharesAny_iff]
  exact ⟨f, hf, v, by rw [a.get_congr hfkey, hv], hsame⟩

theorem get_eq_none_of_contains (h : a.contains key = false) : a.get key = none := by
  cases hget : a.get key with
  | none => rfl
  | some id =>
    rw [contains_of_get hget] at h
    cases h

theorem AnswerAlike.contains (h : AnswerAlike key a b) : a.contains key = true := by
  obtain ⟨v, w, hv, -⟩ := h
  exact contains_of_get hv

theorem AnswerAlike.symm (h : AnswerAlike key a b) : AnswerAlike key b a := by
  obtain ⟨v, w, hv, hw, hsame⟩ := h
  exact ⟨w, v, hw, hv, by rw [Text.same_comm, hsame]⟩

end ExternalIds

open ExternalIds

namespace SearchHit

variable {kept hits : List SearchHit} {hit a b entry : SearchHit} {i j k : Nat} {key : String}

/-! ## The ids of an entry -/

theorem get_absorb (entry hit : SearchHit) (key : String) :
    (entry.absorb hit).externalIds.get key =
      if entry.externalIds.contains key then entry.externalIds.get key
      else hit.externalIds.get key := get_mergeMissing _ _ key

theorem contains_absorb (entry hit : SearchHit) (key : String) :
    (entry.absorb hit).externalIds.contains key =
      (entry.externalIds.contains key || hit.externalIds.contains key) :=
  contains_mergeMissing _ _ key

/-- The first of several hits that has anything under a key, if only an empty id. -/
def firstHolding? (key : String) (hits : List SearchHit) : Option SearchHit :=
  hits.find? (·.externalIds.contains key)

/-- Hits made one answer under a key as the first of them that has anything there. -/
theorem get_united (h : united hits = some entry) (key : String) :
    entry.externalIds.get key =
      (firstHolding? key hits).bind (·.externalIds.get key) := by
  cases hits with
  | nil => cases h
  | cons first rest =>
    obtain rfl := Option.some.inj h
    unfold firstHolding?
    -- the entry so far stands for all hits that it is made of
    induction rest generalizing first with
    | nil =>
      cases hholds : first.externalIds.contains key with
      | true => simp [hholds]
      | false => simp [hholds, get_eq_none_of_contains hholds]
    | cons second rest ih =>
      rw [List.foldl_cons, ih (first.absorb second) rfl]
      simp only [List.find?_cons, contains_absorb]
      cases hholds : first.externalIds.contains key with
      | true => simp [get_absorb, hholds]
      | false =>
        cases second.externalIds.contains key with
        | true => simp [get_absorb, hholds]
        | false => rfl

/-- The id of a hit is lost exactly when the first before it that has anything under the key
has an empty id. -/
theorem get_united_eq_none_iff {before after : List SearchHit}
    (h : united (before ++ hit :: after) = some entry)
    (hid : (hit.externalIds.get key).isSome = true) :
    entry.externalIds.get key = none ↔
      ∃ other, firstHolding? key before = some other ∧ other.externalIds.get key = none := by
  obtain ⟨id, hget⟩ := Option.isSome_iff_exists.mp hid
  have hholds : hit.externalIds.contains key = true := contains_of_get hget
  rw [get_united h key]
  unfold firstHolding?
  rw [List.find?_append]
  cases hfirst : before.find? (·.externalIds.contains key) with
  | none => simp [hholds, hget]
  | some other => simp

/-- An entry of a merged list answers under a key as the first of its hits that has anything
there, and the id of a hit is lost exactly when that one stands before it with an empty id. -/
theorem ids_lost_behind_empty {batches : List (String × List SearchHit)}
    (h : (merge batches)[j]? = some entry) (key : String) :
    entry.externalIds.get key =
        (firstHolding? key (members (results batches) j)).bind (·.externalIds.get key) ∧
      ∀ before hit after, members (results batches) j = before ++ hit :: after →
        (hit.externalIds.get key).isSome = true →
        (entry.externalIds.get key = none ↔
          ∃ other, firstHolding? key before = some other ∧
            other.externalIds.get key = none) := by
  have hmerge : merge batches = mergeAll (results batches) := rfl
  rw [hmerge, getElem?_mergeAll] at h
  refine ⟨get_united h key, ?_⟩
  intro before hit after hmembers hid
  rw [hmembers] at h
  exact get_united_eq_none_iff h hid

/-- A title known under some ids. -/
def titled (name : String) (ids : List (String × String)) : SearchHit :=
  { name := name, productionYear := none, premiereDate := none, overview := none,
    imageUrl := none, externalIds := .collect ids, provider := none }

/-- A title with an empty id. -/
def unlisted : SearchHit := titled "Heat" [("Imdb", ""), ("Tmdb", "1")]

/-- The same title with the id that the other lacks. -/
def listed : SearchHit := titled "Heat" [("Imdb", "tt1"), ("Tmdb", "1")]

/-- Two answers for one title, the first with an empty id. -/
def halfKnown : List (String × List SearchHit) := [("A", [unlisted]), ("B", [listed])]

theorem members_halfKnown : members (results halfKnown) 0 =
    [{ unlisted with provider := some "A" }] ++ { listed with provider := some "B" } :: [] := rfl

theorem halfKnown_loses_id :
    listed.externalIds.get "imdb" = some "tt1" ∧
      ∃ entry, (merge halfKnown)[0]? = some entry ∧ entry.externalIds.get "imdb" = none := by
  have hentry : (merge halfKnown)[0]? = some { unlisted with provider := some "A" } := rfl
  have hlost := (ids_lost_behind_empty hentry "imdb").2 _ _ _ members_halfKnown (by decide)
  exact ⟨by decide, _, hentry, hlost.mpr ⟨{ unlisted with provider := some "A" }, rfl, by decide⟩⟩

/-- The id of a later hit may be lost. -/
theorem not_all_ids_kept :
    ¬ ∀ (batches : List (String × List SearchHit)) (j : Nat) (entry hit : SearchHit)
      (key : String), (merge batches)[j]? = some entry → hit ∈ members (results batches) j →
        (hit.externalIds.get key).isSome = true →
        (entry.externalIds.get key).isSome = true := by
  intro h
  have hentry : (merge halfKnown)[0]? = some { unlisted with provider := some "A" } := rfl
  have hmember : { listed with provider := some "B" } ∈ members (results halfKnown) 0 := by
    simp [members_halfKnown]
  have hkept := h halfKnown 0 _ _ "imdb" hentry hmember (by decide)
  revert hkept
  decide

/-! ## Shared ids -/

/-- The entries at two places answer under a key with the same id. -/
def Sharing (key : String) (kept : List SearchHit) (j k : Nat) : Prop :=
  ∃ a b, kept[j]? = some a ∧ kept[k]? = some b ∧ AnswerAlike key a.externalIds b.externalIds

/-- A hit carries the id of the entry at `k` over to the one at `j`, which has nothing under
the key and which it is folded into. -/
def Carrying (key : String) (kept : List SearchHit) (hit : SearchHit) (j k : Nat) : Prop :=
  place hit kept = j ∧ ∃ a b, kept[j]? = some a ∧ kept[k]? = some b ∧
    a.externalIds.contains key = false ∧ AnswerAlike key hit.externalIds b.externalIds

theorem not_answerAlike_of_lt_place (hj : j < place hit kept) (ha : kept[j]? = some a) :
    ¬ AnswerAlike key a.externalIds hit.externalIds := by
  intro h
  have hshares : a.sharesId hit = true := h.sharesAny
  rw [not_sharesId_of_lt_place hj ha] at hshares
  cases hshares

/-- An entry that absorbs a hit answers as before, and where it had nothing as the hit. -/
theorem answerAlike_absorb (entry hit : SearchHit) (ids : ExternalIds) :
    AnswerAlike key (entry.absorb hit).externalIds ids ↔
      AnswerAlike key entry.externalIds ids ∨
        entry.externalIds.contains key = false ∧ AnswerAlike key hit.externalIds ids := by
  have hget := get_absorb entry hit key
  cases hcontains : entry.externalIds.contains key with
  | true =>
    rw [hcontains, if_pos rfl] at hget
    unfold AnswerAlike
    simp [hget]
  | false =>
    rw [hcontains, if_neg Bool.false_ne_true] at hget
    have hnothing : ¬ AnswerAlike key entry.externalIds ids := by
      intro h
      rw [h.contains] at hcontains
      cases hcontains
    unfold AnswerAlike at hnothing ⊢
    simp only [hget, hnothing, false_or, true_and]

/-- A hit that goes to the earlier of two entries makes them share an id only by carrying it
over. -/
theorem sharing_keep_of_place (hjk : j < k) (hj : j = place hit kept) :
    Sharing key (keep hit kept) j k ↔ Sharing key kept j k ∨ Carrying key kept hit j k := by
  have hk : k ≠ place hit kept := by omega
  unfold Sharing Carrying
  rw [getElem?_keep, getElem?_keep, if_pos hj, if_neg hk]
  constructor
  · rintro ⟨a', b, ha', hb, halike⟩
    have hlength := (List.getElem?_eq_some_iff.mp hb).1
    have ha := List.getElem?_eq_getElem (show j < kept.length by omega)
    rw [ha] at ha'
    obtain rfl := Option.some.inj ha'
    rw [Option.elim_some, answerAlike_absorb] at halike
    rcases halike with halike | ⟨hlacks, halike⟩
    · exact Or.inl ⟨_, b, ha, hb, halike⟩
    · exact Or.inr ⟨hj.symm, _, b, ha, hb, hlacks, halike⟩
  · rintro (⟨a, b, ha, hb, halike⟩ | ⟨-, a, b, ha, hb, hlacks, halike⟩)
    · refine ⟨a.absorb hit, b, by rw [ha]; rfl, hb, ?_⟩
      exact (answerAlike_absorb a hit b.externalIds).mpr (Or.inl halike)
    · refine ⟨a.absorb hit, b, by rw [ha]; rfl, hb, ?_⟩
      exact (answerAlike_absorb a hit b.externalIds).mpr (Or.inr ⟨hlacks, halike⟩)

/-- A hit that goes to another entry than the earlier of two makes them share nothing new.
The later one cannot get an id of the earlier: a hit that has it goes to the earlier one or
before. -/
theorem sharing_keep_of_ne_place (hjk : j < k) (hj : j ≠ place hit kept) :
    Sharing key (keep hit kept) j k ↔ Sharing key kept j k := by
  unfold Sharing
  rw [getElem?_keep, getElem?_keep, if_neg hj]
  by_cases hk : k = place hit kept
  · rw [if_pos hk]
    have hbefore : j < place hit kept := by omega
    constructor
    · rintro ⟨a, b', ha, hb', halike⟩
      have hnever : ¬ AnswerAlike key a.externalIds hit.externalIds :=
      not_answerAlike_of_lt_place hbefore ha
      cases hb : kept[k]? with
      | none =>
        rw [hb] at hb'
        obtain rfl := Option.some.inj hb'
        exact absurd halike hnever
      | some b =>
        rw [hb] at hb'
        obtain rfl := Option.some.inj hb'
        have hswapped := halike.symm
        rw [Option.elim_some, answerAlike_absorb] at hswapped
        rcases hswapped with hswapped | ⟨-, hswapped⟩
        · exact ⟨a, b, ha, rfl, hswapped.symm⟩
        · exact absurd hswapped.symm hnever
    · rintro ⟨a, b, ha, hb, halike⟩
      refine ⟨a, b.absorb hit, ha, by rw [hb]; rfl, ?_⟩
      exact ((answerAlike_absorb b hit a.externalIds).mpr (Or.inl halike.symm)).symm
  · rw [if_neg hk]

theorem sharing_keep (hjk : j < k) :
    Sharing key (keep hit kept) j k ↔ Sharing key kept j k ∨ Carrying key kept hit j k := by
  by_cases hj : j = place hit kept
  · exact sharing_keep_of_place hjk hj
  · have hcarries : ¬ Carrying key kept hit j k := by
      rintro ⟨hplace, -⟩
      exact hj hplace.symm
    rw [sharing_keep_of_ne_place hjk hj, or_iff_left hcarries]

/-- The last turn of a sequence is that of its last hit, with all others merged. -/
theorem exists_turn_append_singleton (P : List SearchHit → SearchHit → Prop)
    (hits : List SearchHit) (last : SearchHit) :
    (∃ i hit, (hits ++ [last])[i]? = some hit ∧ P (standing (hits ++ [last]) i) hit) ↔
      (∃ i hit, hits[i]? = some hit ∧ P (standing hits i) hit) ∨ P (mergeAll hits) last := by
  have hend : standing (hits ++ [last]) hits.length = mergeAll hits := by
    rw [standing_append hits [last] (Nat.le_refl _), standing_length]
  constructor
  · rintro ⟨i, hit, hhit, hturn⟩
    by_cases hi : i < hits.length
    · rw [List.getElem?_append_left hi] at hhit
      rw [standing_append hits [last] (Nat.le_of_lt hi)] at hturn
      exact Or.inl ⟨i, hit, hhit, hturn⟩
    · have hlt := (List.getElem?_eq_some_iff.mp hhit).1
      rw [List.length_append, List.length_singleton] at hlt
      obtain rfl : i = hits.length := by omega
      rw [hend] at hturn
      obtain rfl : last = hit := by simpa using hhit
      exact Or.inr hturn
  · rintro (⟨i, hit, hhit, hturn⟩ | hturn)
    · have hi := (List.getElem?_eq_some_iff.mp hhit).1
      refine ⟨i, hit, by rw [List.getElem?_append_left hi, hhit], ?_⟩
      rw [standing_append hits [last] (Nat.le_of_lt hi)]
      exact hturn
    · exact ⟨hits.length, last, by simp, by rw [hend]; exact hturn⟩

/-- Two entries of a merged list share an id exactly when a hit carried it over at its turn. -/
theorem sharing_mergeAll (hjk : j < k) :
    Sharing key (mergeAll hits) j k ↔
      ∃ i hit, hits[i]? = some hit ∧ Carrying key (standing hits i) hit j k := by
  induction hits using List.reverseRecOn with
  | nil => simp [Sharing, mergeAll]
  | append_singleton hits last ih =>
    rw [mergeAll_append_singleton, sharing_keep hjk, ih,
      exists_turn_append_singleton (fun kept hit => Carrying key kept hit j k)]

/-! ## Hits without ambiguous keys -/

theorem mem_of_mem_members (h : hit ∈ members hits j) : hit ∈ hits := by
  unfold members at h
  obtain ⟨i, -, hi⟩ := List.mem_filterMap.mp h
  split at hi
  · exact List.mem_of_getElem? hi
  · cases hi

theorem unambiguous_of_mergeAll (hplain : ∀ hit ∈ hits, hit.externalIds.Unambiguous)
    (h : (mergeAll hits)[j]? = some entry) : entry.externalIds.Unambiguous := by
  rw [getElem?_mergeAll] at h
  cases hmembers : members hits j with
  | nil =>
    rw [hmembers] at h
    cases h
  | cons first rest =>
    rw [hmembers] at h
    obtain rfl := Option.some.inj h
    have hfirst : first ∈ members hits j := by simp [hmembers]
    refine List.foldlRecOn (motive := fun e : SearchHit => e.externalIds.Unambiguous) rest _
      (hplain first (mem_of_mem_members hfirst)) ?_
    intro e he hit _
    exact he.mergeMissing hit.externalIds

/-- The hit at `i` carried an id from the entry at `k` over to the one at `j`: it shared ids
with both and was folded into the earlier one, which had nothing under the key. -/
structure Carries (key : String) (hits : List SearchHit) (i j k : Nat)
    (hit earlier later : SearchHit) : Prop where
  turn : hits[i]? = some hit
  home : home? hits i = some j
  before : (standing hits i)[j]? = some earlier
  behind : (standing hits i)[k]? = some later
  shares : earlier.sharesId hit = true
  lacks : earlier.externalIds.contains key = false
  brings : HaveInCommon key hit.externalIds later.externalIds

theorem exists_carries_iff (hplain : ∀ hit ∈ hits, hit.externalIds.Unambiguous) :
    (∃ i hit, hits[i]? = some hit ∧ Carrying key (standing hits i) hit j k) ↔
      ∃ i hit earlier later, Carries key hits i j k hit earlier later := by
  have hlike {i : Nat} {hit later : SearchHit} (hhit : hits[i]? = some hit)
      (hlater : (standing hits i)[k]? = some later) :
      HaveInCommon key hit.externalIds later.externalIds ↔
        AnswerAlike key hit.externalIds later.externalIds := by
    refine haveInCommon_iff (hplain hit (List.mem_of_getElem? hhit))
      (unambiguous_of_mergeAll ?_ hlater)
    intro other hother
    exact hplain other (List.mem_of_mem_take hother)
  constructor
  · rintro ⟨i, hit, hhit, hplace, earlier, later, hearlier, hlater, hlacks, halike⟩
    have hhome : home? hits i = some j := by
      unfold home?
      rw [hhit, Option.map_some, hplace]
    subst hplace
    exact ⟨i, hit, earlier, later, hhit, hhome, hearlier, hlater, sharesId_of_place hearlier,
      hlacks, (hlike hhit hlater).mpr halike⟩
  · rintro ⟨i, hit, earlier, later, hcarries⟩
    have hplace : place hit (standing hits i) = j := by
      have hhome := hcarries.home
      unfold home? at hhome
      rw [hcarries.turn] at hhome
      exact Option.some.inj hhome
    exact ⟨i, hit, hcarries.turn, hplace, earlier, later, hcarries.before, hcarries.behind,
      hcarries.lacks, (hlike hcarries.turn hcarries.behind).mp hcarries.brings⟩

/-- Of hits without ambiguous keys two entries have an id in common exactly when a hit carried
it over from the later to the earlier. -/
theorem shared_ids_are_carried {batches : List (String × List SearchHit)}
    (hplain : ∀ batch ∈ batches, ∀ hit ∈ batch.2, hit.externalIds.Unambiguous)
    (hjk : j < k) (ha : (merge batches)[j]? = some a) (hb : (merge batches)[k]? = some b)
    (key : String) :
    HaveInCommon key a.externalIds b.externalIds ↔
      ∃ i hit earlier later, Carries key (results batches) i j k hit earlier later := by
  have hresults : ∀ hit ∈ results batches, hit.externalIds.Unambiguous := by
    intro hit hhit
    obtain ⟨batch, hbatch, hstamped⟩ := List.mem_flatMap.mp hhit
    obtain ⟨found, hfound, rfl⟩ := List.mem_map.mp hstamped
    exact hplain batch hbatch found hfound
  have hmerge : merge batches = mergeAll (results batches) := rfl
  rw [hmerge] at ha hb
  have hsharing : AnswerAlike key a.externalIds b.externalIds ↔
      Sharing key (mergeAll (results batches)) j k := by
    unfold Sharing
    simp [ha, hb]
  rw [haveInCommon_iff (unambiguous_of_mergeAll hresults ha) (unambiguous_of_mergeAll hresults hb),
    hsharing, sharing_mergeAll hjk, exists_carries_iff hresults]

/-- Two titles without a common id, and one that has the ids of both. -/
def bridged : List (String × List SearchHit) :=
  [("A", [titled "Heat" [("Imdb", "tt1")], titled "Heat (1995)" [("Tmdb", "2")]]),
    ("B", [titled "Heat" [("Imdb", "tt1"), ("Tmdb", "2")]])]

theorem bridged_unambiguous :
    ∀ batch ∈ bridged, ∀ hit ∈ batch.2, hit.externalIds.Unambiguous := by decide

theorem bridge_carries_id :
    ∃ a b, (merge bridged)[0]? = some a ∧ (merge bridged)[1]? = some b ∧
      HaveInCommon "tmdb" a.externalIds b.externalIds ∧
      ∃ i hit earlier later, Carries "tmdb" (results bridged) i 0 1 hit earlier later := by
  have hshared : HaveInCommon "tmdb" (.collect [("Imdb", "tt1"), ("Tmdb", "2")])
      (.collect [("Tmdb", "2")]) :=
    ⟨("Tmdb", "2"), by decide, ("Tmdb", "2"), by decide, by decide⟩
  exact ⟨_, _, rfl, rfl, hshared,
    (shared_ids_are_carried bridged_unambiguous (by omega) rfl rfl "tmdb").mp hshared⟩

/-- Entries that were kept apart may share an id in the end. -/
theorem bridge_leaves_shared_id :
    ¬ ∀ batches : List (String × List SearchHit),
      (∀ batch ∈ batches, ∀ hit ∈ batch.2, hit.externalIds.Unambiguous) →
      ∀ (j k : Nat) (a b : SearchHit), j < k → (merge batches)[j]? = some a →
        (merge batches)[k]? = some b → ∀ key, ¬ HaveInCommon key a.externalIds b.externalIds := by
  intro h
  exact h bridged bridged_unambiguous 0 1 _ _ (by omega) rfl rfl "tmdb"
    ⟨("Tmdb", "2"), by decide, ("Tmdb", "2"), by decide, by decide⟩

end SearchHit

end MediaRefresh
