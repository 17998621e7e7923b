import MediaRefresh.Proofs.Metadata.Precedence

/-!
# Metadata: a second refresh finds nothing to do

When the providers answer as they did before, a refresh of the item that a refresh has
made leaves it as it is: every field has settled on the first present value, and no
result changes what has settled.
-/

set_option autoImplicit false

namespace MediaRefresh

variable {σ : Type}

/-! ## Rounds in which nothing changes -/

/-- A result that changes nothing leaves the item, and is reported for a local provider
only. -/
theorem Gathering.hear_unchanged {g : Gathering} {t : Turn σ}
    (h : ∀ r ∈ t.result?, r.applyTo g.overwrite g.item = (g.item, false)) :
    (g.hear t).item = g.item ∧ ∀ c, (g.hear t).update.holds c =
      (g.update.holds c || (c == .metadataImport && t.foundLocally)) := by
  unfold Turn.foundLocally
  cases hresult : t.result? with
  | none =>
    rw [hear_of_none hresult]
    exact ⟨rfl, fun c => by simp⟩
  | some r =>
    obtain ⟨hfound, htake⟩ := hear_of_some (g := g) hresult
    rw [htake, take, if_pos hfound, h r hresult]
    refine ⟨rfl, fun c => ?_⟩
    have hcomm : (Change.metadataImport == c) = (c == .metadataImport) := BEq.comm
    cases t.provider.source <;> simp [hcomm]

namespace Round

variable {w w' : World σ} {g g' : Gathering} {turns : List (Turn σ)}

/-- By induction on the round.  The first result may still overwrite, so that more is
asked of it than of the others. -/
theorem unchanged (h : Round w g turns w' g')
    (hfirst : ∀ r ∈ (turns.filterMap Turn.result?).head?,
      r.applyTo g.overwrite g.item = (g.item, false))
    (hresults : ∀ r ∈ turns.filterMap Turn.result?, r.applyTo false g.item = (g.item, false)) :
    g'.item = g.item ∧ ∀ c, g'.update.holds c =
      (g.update.holds c || (c == .metadataImport && turns.any Turn.foundLocally)) := by
  induction h with
  | done => simp
  | @next w w' g g' turns p _ _ ih =>
    have hturn : ∀ r ∈ (p.turn g.info w).result?,
        r.applyTo g.overwrite g.item = (g.item, false) := by
      intro r hr
      rw [List.filterMap_cons_some hr] at hfirst
      exact hfirst r rfl
    obtain ⟨hitem, hupdate⟩ := Gathering.hear_unchanged hturn
    have hrest : ∀ r ∈ turns.filterMap Turn.result?, r.applyTo false g.item = (g.item, false) := by
      intro r hr
      obtain ⟨t, ht, hresult⟩ := List.mem_filterMap.mp hr
      exact hresults r (List.mem_filterMap.mpr ⟨t, List.mem_cons_of_mem _ ht, hresult⟩)
    have hnext : ∀ r ∈ (turns.filterMap Turn.result?).head?,
        r.applyTo (g.hear (p.turn g.info w)).overwrite g.item = (g.item, false) := by
      intro r hr
      cases hresult : (p.turn g.info w).result? with
      | none =>
        rw [List.filterMap_cons_none hresult] at hfirst
        rw [Gathering.hear_of_none hresult]
        exact hfirst r hr
      | some _ =>
        rw [Gathering.hear_overwrite hresult]
        exact hrest r (List.mem_of_mem_head? hr)
    rw [hitem] at ih
    obtain ⟨hstays, hadds⟩ := ih hnext hrest
    refine ⟨hstays, fun c => ?_⟩
    rw [hadds, hupdate, List.any_cons, Bool.and_or_distrib_left, Bool.or_assoc]

end Round

namespace Follows

variable {overwrite : Bool} {item item' : Item} {r : MetadataResult}
  {results : List MetadataResult}

theorem applyTo_first (h : Follows overwrite item results item')
    (hwell : ∀ r ∈ results, r.WellFormed) (hr : r ∈ results.head?) :
    r.applyTo overwrite item' = (item', false) := by
  cases results with
  | nil => cases hr
  | cons first rest =>
    obtain rfl : first = r := Option.some.inj hr
    exact MetadataResult.applyTo_of_follows (hwell first List.mem_cons_self) h.again

theorem applyTo_rest (h : Follows overwrite item results item')
    (hwell : ∀ r ∈ results, r.WellFormed) (hr : r ∈ results) :
    r.applyTo false item' = (item', false) :=
  MetadataResult.applyTo_of_follows (hwell r hr) (h.fill hr)

end Follows

/-! ## Providers that answer alike each time -/

/-- How providers answer that always answer alike. -/
abbrev FixedAnswers (σ : Type) := MetadataProvider σ → Except Failure MetadataResult

/-- Whether a provider is a local one that has something. -/
def FixedAnswers.finds (answers : FixedAnswers σ) (p : MetadataProvider σ) : Bool :=
  p.source == .disk && (resultIn? (answers p)).isSome

theorem FixedAnswers.finds_iff {answers : FixedAnswers σ} {p : MetadataProvider σ} :
    answers.finds p = true ↔
      p.source = .disk ∧ ∃ r, answers p = .ok r ∧ r.hasMetadata = true := by
  rw [finds, Bool.and_eq_true, beq_iff_eq, Option.isSome_iff_exists]
  simp only [resultIn?_eq_some]

/-- Nothing changes from one refresh to the next: not the settings of libraries, nor what
the providers answer.  No provider is cancelled, and what they answer is well-formed. -/
structure Manager.Steady (m : Manager σ) (answers : FixedAnswers σ) : Prop where
  library : ∀ state state' item other,
    m.host.libraryOptions state (item.withMetadataOf other) = m.host.libraryOptions state' item
  outcome : ∀ p ∈ m.providers.metadataProviders, ∀ info s, (p.fetch info s).outcome = answers p
  uncut : ∀ p ∈ m.providers.metadataProviders, ∀ info s, (p.fetch info s).fires = false
  wellFormed : ∀ p ∈ m.providers.metadataProviders, ∀ r, answers p = .ok r → r.WellFormed

/-- The results that such providers have for an item, in the order of the calls. -/
def FixedAnswers.results (answers : FixedAnswers σ) (selected : List (MetadataProvider σ))
    (options : RefreshOptions) : List MetadataResult :=
  (callOrder selected options (selected.any answers.finds)).filterMap fun p =>
    resultIn? (answers p)

theorem any_foundLocally_eq {answers : FixedAnswers σ} {turns : List (Turn σ)}
    (h : ∀ t ∈ turns, t.answer = answers t.provider) :
    turns.any Turn.foundLocally = (turns.map Turn.provider).any answers.finds := by
  rw [List.any_map, Bool.eq_iff_iff, List.any_eq_true, List.any_eq_true]
  refine exists_congr fun t => and_congr_right fun ht => ?_
  rw [Turn.foundLocally, Turn.result?, h t ht]
  rfl

/-- Local providers are never left out. -/
theorem any_finds_callOrder (answers : FixedAnswers σ) (selected : List (MetadataProvider σ))
    (options : RefreshOptions) (foundLocally : Bool) :
    (callOrder selected options foundLocally).any answers.finds = selected.any answers.finds := by
  rw [(callOrder_perm selected options foundLocally).any_eq, List.any_filter]
  congr 1
  funext p
  unfold FixedAnswers.finds
  cases p.source <;> simp

namespace Manager

variable {m : Manager σ} {answers : FixedAnswers σ} {item : Item} {options : RefreshOptions}
  {w : World σ}

theorem mem_of_mem_selected {state : σ} {p : MetadataProvider σ} (h : p ∈ m.selected state item) :
    p ∈ m.providers.metadataProviders := (MetadataProvider.mem_select.mp h).1

theorem Steady.selected_eq (h : m.Steady answers) (state state' : σ) (item other : Item) :
    m.selected state (item.withMetadataOf other) = m.selected state' item := by
  unfold selected
  rw [h.library state state' item other]
  rfl

theorem Steady.gathered (h : m.Steady answers) (hactive : w.cancelled = false) (item : Item)
    (options : RefreshOptions) :
    ∃ turns w' g, m.gatherMetadata item options w = .ok (g.item, g.update) w' ∧
      Round w (m.gathering item options) turns w' g ∧
      turns.filterMap Turn.result? = answers.results (m.selected w.state item) options ∧
      turns.any Turn.foundLocally = (m.selected w.state item).any answers.finds := by
  have hregistered {turns : List (Turn σ)} {found : Bool}
      (hasked : turns.map Turn.provider ⊆ callOrder (m.selected w.state item) options found) :
      ∀ t ∈ turns, t.provider ∈ m.providers.metadataProviders := fun t ht =>
    mem_of_mem_selected (mem_of_mem_callOrder (hasked (List.mem_map_of_mem ht)))
  obtain ⟨turns, w', g, hround, ⟨hrun, hasked⟩ | ⟨-, hcancelled, hasked⟩⟩ :=
    m.gatherMetadata_round item options w
  · have hanswers : ∀ t ∈ turns, t.answer = answers t.provider := by
      intro t ht
      obtain ⟨s, hs⟩ := hround.answer_eq t ht
      rw [hs, h.outcome _ (hregistered (fun p hp => hasked ▸ hp) t ht)]
    have hfound : turns.any Turn.foundLocally = (m.selected w.state item).any answers.finds := by
      rw [any_foundLocally_eq hanswers, hasked, any_finds_callOrder]
    refine ⟨turns, w', g, hrun, hround, ?_, hfound⟩
    rw [filterMap_result?_eq hanswers, hasked, hfound]
    rfl
  · have hstill := hround.cancelled_eq fun t ht => h.uncut _ (hregistered hasked.subset t ht)
    rw [hcancelled, hactive] at hstill
    cases hstill

theorem Steady.results_wellFormed (h : m.Steady answers) (state : σ) (item : Item)
    (options : RefreshOptions) :
    ∀ r ∈ answers.results (m.selected state item) options, r.WellFormed := by
  intro r hr
  obtain ⟨p, hp, hresult⟩ := List.mem_filterMap.mp hr
  exact h.wellFormed p (mem_of_mem_selected (mem_of_mem_callOrder hp)) r
    (resultIn?_eq_some.mp hresult).1

/-- A refresh of metadata is idempotent: the item that it makes stays as it is in the next
one with the same options, which reports an import if a local provider has something, and
nothing else. -/
theorem refresh_settles (m : Manager σ) (answers : FixedAnswers σ) (hsteady : m.Steady answers)
    (item : Item) (options : RefreshOptions) (w : World σ) (hactive : w.cancelled = false) :
    ∃ item' update w', m.gatherMetadata item options w = .ok (item', update) w' ∧
      ∀ next, next.cancelled = false →
        ∃ update' last, m.gatherMetadata item' options next = .ok (item', update') last ∧
          ∀ c, update'.holds c = true ↔ c = .metadataImport ∧
            ∃ p ∈ m.selected w.state item, p.source = .disk ∧
              ∃ r, answers p = .ok r ∧ r.hasMetadata = true := by
  obtain ⟨turns, w', g, hrun, hround, hresults, -⟩ := hsteady.gathered hactive item options
  refine ⟨g.item, g.update, w', hrun, fun next hnext => ?_⟩
  obtain ⟨again, last, g', hrun', hround', hresults', hfound⟩ :=
    hsteady.gathered hnext g.item options
  have hitem : g.item = item.withResults (options.replaceMetadata && !item.locked)
      (answers.results (m.selected w.state item) options) := hresults ▸ hround.item_eq
  have hframe : g.item = item.withMetadataOf g.item := by
    rw [hitem]
    exact item.withResults_withMetadataOf
  have hselected : m.selected next.state g.item = m.selected w.state item := by
    rw [hframe]
    exact hsteady.selected_eq _ _ _ _
  rw [hselected] at hresults' hfound
  have hwell := hsteady.results_wellFormed w.state item options
  have hfollows : Follows (options.replaceMetadata && !item.locked) item
      (answers.results (m.selected w.state item) options) g.item := by
    rw [hitem]
    exact item.withResults_follows fun r hr => (hwell r hr).ids
  have hlocked : g.item.locked = item.locked := by rw [hframe]; rfl
  have hoverwrite : (m.gathering g.item options).overwrite =
      (options.replaceMetadata && !item.locked) := by rw [← hlocked]; rfl
  obtain ⟨hstays, hupdate⟩ := hround'.unchanged
    (fun r hr => by
      rw [hoverwrite]
      rw [hresults'] at hr
      exact hfollows.applyTo_first hwell hr)
    (fun r hr => hfollows.applyTo_rest hwell (hresults' ▸ hr))
  have hsame : g'.item = g.item := hstays
  refine ⟨g'.update, last, by rw [hrun', hsame], fun c => ?_⟩
  have hnothing : (m.gathering g.item options).update.holds c = false := Update.holds_empty c
  rw [hupdate, hfound, hnothing, Bool.false_or, Bool.and_eq_true, beq_iff_eq, List.any_eq_true]
  simp only [FixedAnswers.finds_iff]

open Rehearsal in
/-- The reader has the last word on the name, and nothing is left to do after the first
refresh but to report that it was read. -/
theorem twoProviders_settle :
    (twoProviders false).Steady known ∧
      ∃ item' update w', (twoProviders false).gatherMetadata film .full (.fresh emptyStage) =
          .ok (item', update) w' ∧
        ∀ next, next.cancelled = false →
          ∃ update' last, (twoProviders false).gatherMetadata item' .full next =
              .ok (item', update') last ∧ update'.holds .metadataImport = true := by
  have hsteady : (twoProviders false).Steady known := by
    refine ⟨fun _ _ _ _ => rfl, twoProviders_known false, ?_, ?_⟩
    · simp [twoProviders, reader, catalogue, answer]
    · intro p hp r hr
      obtain rfl | rfl := List.mem_pair.mp hp
      · obtain rfl := Except.ok.inj hr
        exact ⟨nofun, by decide⟩
      · obtain rfl := Except.ok.inj hr
        exact ⟨nofun, by decide⟩
  obtain ⟨item', update, w', hrun, hnext⟩ := refresh_settles (twoProviders false) known hsteady
    film .full (.fresh emptyStage) rfl
  refine ⟨hsteady, item', update, w', hrun, fun next hactive => ?_⟩
  obtain ⟨update', last, hrun', hupdate⟩ := hnext next hactive
  refine ⟨update', last, hrun', (hupdate _).mpr ⟨rfl, reader false, ?_, rfl, _, rfl, rfl⟩⟩
  exact twoProviders_selected false ▸ List.mem_cons_self

end Manager

end MediaRefresh
