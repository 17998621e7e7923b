import MediaRefresh.Proofs.Metadata.CallOrder

/-!
# Metadata: the ids that providers are told

The item and the lookup take up the ids of a result by different rules.  In the lookup the
first entry under a key stays, even one whose id is empty; on the item an empty id counts
for nothing, and the first result may put its id in the place of another.  The laws of both
are stated for any bags, also for those with several spellings of a key, and from them when
the two agree.
-/

set_option autoImplicit false

namespace MediaRefresh

open RefreshM ExternalIds

variable {σ : Type}

/-! ## The ids of an item after results -/

/-- The ids that a result has under a key, in order; empty ones do not count. -/
def MetadataResult.idsUnder (r : MetadataResult) (key : String) : List String :=
  ExternalIds.idsUnder key r.externalIds.entries

/-- The id under a key that the first of several results puts in the place of another, if
it may overwrite. -/
def replacement? (overwrite : Bool) (key : String) (results : List MetadataResult) :
    Option String :=
  if overwrite then results.head?.bind fun r => (r.idsUnder key).getLast? else none

namespace Item

variable (item : Item) (key : String) (results : List MetadataResult)

theorem withResults_get_fill : (item.withResults false results).externalIds.get key =
    (item.externalIds.get key).or (results.flatMap (·.idsUnder key)).head? := by
  induction results generalizing item with
  | nil => exact Option.or_none.symm
  | cons r rest ih =>
    have hfirst : (r.applyTo false item).1.externalIds.get key =
        (item.externalIds.get key).or (r.idsUnder key).head? := foldl_mergeId_fill
    rw [withResults, ih, hfirst, List.flatMap_cons, List.head?_append, Option.or_assoc]

/-- An id that the first result may put in the place of another goes before that of the
item, and all others go behind it. -/
theorem withResults_get (overwrite : Bool) :
    (item.withResults overwrite results).externalIds.get key =
      (replacement? overwrite key results).or ((item.externalIds.get key).or
        (results.flatMap (·.idsUnder key)).head?) := by
  cases overwrite with
  | false => exact item.withResults_get_fill key results
  | true =>
    cases results with
    | nil => exact Option.or_none.symm
    | cons r rest =>
      have hfirst : (r.applyTo true item).1.externalIds.get key =
          (r.idsUnder key).getLast?.or (item.externalIds.get key) := foldl_mergeId_replace
      have hreplaces : replacement? true key (r :: rest) = (r.idsUnder key).getLast? := rfl
      rw [withResults, withResults_get_fill, hfirst, hreplaces, List.flatMap_cons]
      cases hlast : (r.idsUnder key).getLast? with
      | none =>
        rw [List.getLast?_eq_none_iff.mp hlast]
        rfl
      | some v => rfl

end Item

/-! ## The ids of the lookup after turns -/

theorem Gathering.hear_info {g : Gathering} {t : Turn σ} {r : MetadataResult}
    (h : t.result? = some r) :
    (g.hear t).info.externalIds = g.info.externalIds.mergeMissing r.externalIds := by
  obtain ⟨hfound, htake⟩ := hear_of_some (g := g) h
  rw [htake, take, if_pos hfound]

namespace Round

variable {w w' : World σ} {g g' : Gathering} {turns before after : List (Turn σ)} {t : Turn σ}

/-- The first entry under a key stays the first one in the lookup. -/
theorem firstUnder?_info (h : Round w g turns w' g') (key : String) :
    firstUnder? key [g'.info.externalIds] = firstUnder? key
      (g.info.externalIds :: (turns.filterMap Turn.result?).map (·.externalIds)) := by
  induction h with
  | done => rfl
  | @next w w' g g' turns p _ _ ih =>
    rw [ih]
    cases hresult : (p.turn g.info w).result? with
    | none => rw [List.filterMap_cons_none hresult, Gathering.hear_of_none hresult]
    | some r =>
      rw [List.filterMap_cons_some hresult, Gathering.hear_info hresult,
        firstUnder?_mergeMissing, List.map_cons]

/-- The lookup has the keys of all results. -/
theorem contains_info (h : Round w g turns w' g') (key : String) :
    g'.info.externalIds.contains key = (g.info.externalIds.contains key ||
      (turns.filterMap Turn.result?).any (·.externalIds.contains key)) := by
  induction h with
  | done => simp
  | @next w w' g g' turns p _ _ ih =>
    cases hresult : (p.turn g.info w).result? with
    | none => rw [ih, List.filterMap_cons_none hresult, Gathering.hear_of_none hresult]
    | some r =>
      rw [ih, List.filterMap_cons_some hresult, Gathering.hear_info hresult,
        ExternalIds.contains_mergeMissing, List.any_cons, Bool.or_assoc]

/-- A turn in the middle comes after a round of those before it, and tells its provider
what has been gathered by then. -/
theorem at_turn (h : Round w g (before ++ t :: after) w' g') :
    ∃ mid gmid, Round w g before mid gmid ∧ t = t.provider.turn gmid.info mid := by
  induction before generalizing w g with
  | nil =>
    cases h with
    | next p _ _ => exact ⟨w, g, .done w g, rfl⟩
  | cons first rest ih =>
    cases h with
    | next p hactive hrest =>
      obtain ⟨mid, gmid, hround, hturn⟩ := ih hrest
      exact ⟨mid, gmid, .next p hactive hround, hturn⟩

end Round

/-! ## When both agree -/

namespace Item

variable (item : Item) (key : String) (results : List MetadataResult)

/-- The id that a lookup gives under a key after results: that of the first entry, if it is
not empty. -/
def lookedUp? : Option String :=
  (firstUnder? key (item.externalIds :: results.map (·.externalIds))).filter (· ≠ "")

/-- The lookup gives the id of the item exactly when it has one if any result has, and when
it has the one that was put in the place of another. -/
theorem lookedUp?_eq_get_iff (overwrite : Bool) :
    item.lookedUp? key results = (item.withResults overwrite results).externalIds.get key ↔
      (item.lookedUp? key results = none → ∀ r ∈ results, r.idsUnder key = []) ∧
        ∀ id ∈ replacement? overwrite key results, item.lookedUp? key results = some id := by
  rw [withResults_get]
  cases hreplaces : replacement? overwrite key results with
  | some id =>
    rw [Option.some_or]
    constructor
    · intro hsame
      refine ⟨fun hnone => ?_, fun _ hid => hsame.trans hid⟩
      rw [hsame] at hnone
      cases hnone
    · rintro ⟨-, hid⟩
      exact hid id rfl
  | none =>
    rw [Option.none_or]
    cases hfirst : item.lookedUp? key results with
    | some id =>
      obtain ⟨hunder, hid⟩ := Option.filter_eq_some_iff.mp hfirst
      have hfills : (item.externalIds.get key).or (results.flatMap (·.idsUnder key)).head? =
          some id := by
        have hhead := get_or_head?_of_firstUnder? hunder (by simpa using hid)
        rwa [List.flatMap_map] at hhead
      rw [hfills]
      simp
    | none =>
      have hown : item.externalIds.get key = none := by
        cases hentry : item.externalIds.entry? key with
        | none =>
          unfold ExternalIds.get
          rw [hentry]
          rfl
        | some e =>
          rw [get_eq_of_firstUnder? (results.map (·.externalIds)) (by simp [hentry])]
          exact hfirst
      rw [hown, Option.none_or, eq_comm, List.head?_eq_none_iff, List.flatMap_eq_nil_iff]
      simp

end Item

namespace Manager

/-- However it ends, a gathering is a round of providers that were selected. -/
theorem GatherEnd.round {m : Manager σ} {item : Item} {options : RefreshOptions} {w : World σ}
    {result : EStateM.Result Interrupt (World σ) (Item × Update)}
    (h : m.GatherEnd item options w result) :
    ∃ turns w' g, Round w (m.gathering item options) turns w' g ∧
      (∀ t ∈ turns, t.provider ∈ m.selected w.state item) ∧ World.after result = w' := by
  cases h with
  | gathered hround hasked =>
    refine ⟨_, _, _, hround, fun t ht => ?_, rfl⟩
    exact mem_of_mem_callOrder (hasked ▸ List.mem_map_of_mem ht)
  | stopped hround hasked _ =>
    refine ⟨_, _, _, hround, fun t ht => ?_, rfl⟩
    exact mem_of_mem_callOrder (hasked.subset (List.mem_map_of_mem ht))

/-- Whenever a provider is asked in a refresh, the lookup gives under each key the id of the
first entry among those of the item and of the results before, and none if that id is
empty.  This is the id of the item as it is by then, unless that first entry has none while
a result has one, or the first result, which may overwrite, has put another in its place. -/
theorem lookups_give_first_id (m : Manager σ) (item : Item) (options : RefreshOptions)
    (w : World σ) :
    ∃ turns w' g, Round w (m.gathering item options) turns w' g ∧
      (∀ t ∈ turns, t.provider ∈ m.selected w.state item) ∧
      World.after (m.gatherMetadata item options w) = w' ∧
      w'.journal = w.journal ++ turns.map (fun t => .called t.call) ∧
      ∀ before t after, turns = before ++ t :: after →
        ∃ mid gmid, Round w (m.gathering item options) before mid gmid ∧ t.info = gmid.info ∧
          let results := before.filterMap Turn.result?
          ∀ key, t.info.externalIds.get key = item.lookedUp? key results ∧
            (t.info.externalIds.get key = gmid.item.externalIds.get key ↔
              (item.lookedUp? key results = none → ∀ r ∈ results, r.idsUnder key = []) ∧
                ∀ id ∈ replacement? (options.replaceMetadata && !item.locked) key results,
                  item.lookedUp? key results = some id) := by
  obtain ⟨turns, w', g, hround, hselected, hafter⟩ :=
    (m.gatherMetadata_end item options w).round
  refine ⟨turns, w', g, hround, hselected, hafter, hround.journal_eq, ?_⟩
  rintro before t after rfl
  obtain ⟨mid, gmid, hbefore, hturn⟩ := hround.at_turn
  have hinfo : t.info = gmid.info := by
    rw [hturn]
    rfl
  refine ⟨mid, gmid, hbefore, hinfo, fun key => ?_⟩
  have hlookup : t.info.externalIds.get key =
      item.lookedUp? key (before.filterMap Turn.result?) := by
    rw [hinfo, get_eq_firstUnder?, hbefore.firstUnder?_info]
    rfl
  refine ⟨hlookup, ?_⟩
  rw [hlookup, hbefore.item_eq]
  exact item.lookedUp?_eq_get_iff key _ _

end Manager

/-! ## A replaced id -/

namespace Rehearsal

/-- A manager that asks the same catalogue twice. -/
def catalogueTwice : Manager Stage :=
  { twoProviders false with
    providers := { ProviderSet.empty with metadataProviders := [catalogue, catalogue] } }

/-- The film as it is known under some ids. -/
def filmUnder (ids : List (String × String)) : Item := { film with externalIds := .collect ids }

theorem catalogueTwice_selected (ids : List (String × String)) :
    catalogueTwice.selected Manager.emptyStage (filmUnder ids) = [catalogue, catalogue] := by
  refine MetadataProvider.select_of_ordered ?_ ?_
  · intro p hp
    obtain rfl | rfl := List.mem_pair.mp hp
    · rfl
    · rfl
  · exact List.pairwise_pair.mpr rfl

end Rehearsal

open Rehearsal

namespace Manager

/-- The catalogue is asked for the id that it found the first time. -/
theorem found_id_looked_up :
    ∃ first info, (World.after (catalogueTwice.gatherMetadata (filmUnder []) .standard
        (.fresh emptyStage))).journal = [.called first, .called (.fetch "Catalogue" info)] ∧
      info.externalIds.get "imdb" = some "tt0090605" := by
  obtain ⟨turns, w', g, hround, hselected, hafter, hjournal, hturns⟩ :=
    lookups_give_first_id catalogueTwice (filmUnder []) .standard (.fresh emptyStage)
  have hcatalogue : ∀ t ∈ turns, t.provider = catalogue := by
    intro t ht
    have hmem := hselected t ht
    unfold World.fresh at hmem
    rw [catalogueTwice_selected] at hmem
    simpa using hmem
  have hcalls : ∃ first second, w'.journal = [.called first, .called second] := by
    rw [← hafter, gatherMetadata_eq]
    unfold World.fresh
    rw [catalogueTwice_selected]
    exact ⟨_, _, rfl⟩
  obtain ⟨first, second, hcalls⟩ := hcalls
  have htwice : [.called first, .called second] =
      turns.map fun t => Entry.called t.call := hcalls.symm.trans hjournal
  obtain ⟨a, b, rfl⟩ : ∃ a b, turns = [a, b] :=
    List.length_eq_two.mp (by simpa using (congrArg List.length htwice).symm)
  obtain ⟨mid, gmid, hbefore, -, hids⟩ := hturns [a] b [] rfl
  obtain ⟨r, hresult, hfound⟩ : ∃ r, resultIn? (known catalogue) = some r ∧
      r.externalIds = .collect [("Imdb", "tt0090605")] := ⟨_, rfl, rfl⟩
  have ha : a.result? = some r := by
    obtain ⟨s, hs⟩ := hbefore.answer_eq a (by simp)
    rw [← hresult, Turn.result?, hs, hcatalogue a (by simp)]
    rfl
  have hid : b.info.externalIds.get "imdb" = some "tt0090605" := by
    rw [(hids "imdb").1, List.filterMap_cons_some ha, Item.lookedUp?, List.filterMap_nil,
      List.map_singleton, hfound]
    decide
  refine ⟨first, b.info, ?_, hid⟩
  have hsecond : b.call = .fetch "Catalogue" b.info := by
    rw [Turn.call, hcatalogue b (by simp)]
    rfl
  rw [hafter, hjournal, ← hsecond]
  injection htwice with hfirst _
  injection hfirst with hfirst
  rw [hfirst]
  rfl

/-- A lookup may ask for another id than the one that the item has got by then: the
catalogue is told the old id although the item has its own. -/
theorem replaced_id_still_looked_up :
    ¬ ∀ (m : Manager Stage) (item : Item) (options : RefreshOptions) (w w' : World Stage)
      (g : Gathering) (before after : List (Turn Stage)) (t : Turn Stage) (mid : World Stage)
      (gmid : Gathering), m.gatherMetadata item options w = .ok (g.item, g.update) w' →
      Round w (m.gathering item options) (before ++ t :: after) w' g →
      Round w (m.gathering item options) before mid gmid →
      ∀ key, t.info.externalIds.get key = gmid.item.externalIds.get key := by
  intro h
  have hfirst : Round (.fresh emptyStage)
      (catalogueTwice.gathering (filmUnder [("Imdb", "tt0078748")]) .full) [_] _ _ :=
    .next catalogue rfl (.done _ _)
  have hboth : Round (.fresh emptyStage)
      (catalogueTwice.gathering (filmUnder [("Imdb", "tt0078748")]) .full) [_, _] _ _ :=
    .next catalogue rfl (.next catalogue rfl (.done _ _))
  have hsame := fun hrun => h catalogueTwice _ _ _ _ _ [_] [] _ _ _ hrun hboth hfirst "Imdb"
  refine absurd (hsame ?_) (by decide)
  rw [gatherMetadata_eq]
  unfold World.fresh
  rw [catalogueTwice_selected]
  rfl

end Manager

end MediaRefresh
