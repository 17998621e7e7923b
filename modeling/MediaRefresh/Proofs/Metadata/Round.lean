import Mathlib.Data.List.Basic
import MediaRefresh.Proofs.Metadata.Merge
import MediaRefresh.Proofs.Provider.Selection
import MediaRefresh.Proofs.Refresh.Journal

/-!
# Metadata: the turns of the providers

A gathering of metadata asks providers one after the other.  `Round` follows it turn by
turn: who was asked, what it was told, what it answered, and what that made of the
gathering.  Every run of `Manager.gatherMetadata` is a round whose providers stand in
`callOrder`, or the beginning of one that a cancellation has stopped.
-/

set_option autoImplicit false

namespace MediaRefresh

open RefreshM

variable {σ : Type}

/-! ## One turn -/

/-- The result in an answer, if there is one and anything is in it. -/
def resultIn? (answer : Except Failure MetadataResult) : Option MetadataResult :=
  match answer with
  | .ok r => if r.hasMetadata then some r else none
  | .error _ => none

theorem resultIn?_eq_some {answer : Except Failure MetadataResult} {r : MetadataResult} :
    resultIn? answer = some r ↔ answer = .ok r ∧ r.hasMetadata = true := by
  cases answer with
  | error f => simp [resultIn?]
  | ok found =>
    simp only [resultIn?, Option.ite_none_right_eq_some, Option.some.injEq, Except.ok.injEq]
    constructor
    · rintro ⟨hfound, rfl⟩
      exact ⟨rfl, hfound⟩
    · rintro ⟨rfl, hfound⟩
      exact ⟨hfound, rfl⟩

/-- The turn of a provider. -/
structure Turn (σ : Type) where
  provider : MetadataProvider σ
  /-- what the provider was told -/
  info : LookupInfo
  answer : Except Failure MetadataResult

namespace Turn

/-- The call that a turn consists of. -/
def call (t : Turn σ) : Call := .fetch t.provider.name t.info

/-- The result of a turn, if there is one and anything is in it. -/
def result? (t : Turn σ) : Option MetadataResult := resultIn? t.answer

/-- Whether a local provider had something. -/
def foundLocally (t : Turn σ) : Bool := t.provider.source == .disk && t.result?.isSome

end Turn

namespace MetadataProvider

/-- The turn of the provider when it is asked in a world. -/
def turn (p : MetadataProvider σ) (info : LookupInfo) (w : World σ) : Turn σ :=
  ⟨p, info, (p.fetch info w.surroundings).outcome⟩

/-- The world that such a turn leaves. -/
def afterTurn (p : MetadataProvider σ) (info : LookupInfo) (w : World σ) : World σ :=
  { w with
    state := (p.fetch info w.surroundings).state
    cancelled := w.cancelled || (p.fetch info w.surroundings).fires
    journal := w.journal ++ [.called (p.turn info w).call] }

end MetadataProvider

namespace Gathering

variable {g : Gathering} {t : Turn σ} {r : MetadataResult}

/-- What a turn makes of a gathering. -/
def hear (g : Gathering) (t : Turn σ) : Gathering :=
  match t.answer with
  | .ok r => g.take t.provider.source r
  | .error _ => g

theorem hear_of_none (h : t.result? = none) : g.hear t = g := by
  unfold hear
  cases hanswer : t.answer with
  | error f => rfl
  | ok r =>
    have hnothing : r.hasMetadata = false := by
      refine Bool.eq_false_iff.mpr fun hfound => ?_
      rw [Turn.result?, resultIn?_eq_some.mpr ⟨hanswer, hfound⟩] at h
      cases h
    dsimp only
    rw [take, if_neg (by simp [hnothing])]

theorem hear_of_some (h : t.result? = some r) :
    r.hasMetadata = true ∧ g.hear t = g.take t.provider.source r := by
  obtain ⟨hanswer, hfound⟩ := resultIn?_eq_some.mp h
  refine ⟨hfound, ?_⟩
  unfold hear
  rw [hanswer]

theorem hear_item (h : t.result? = some r) :
    (g.hear t).item = (r.applyTo g.overwrite g.item).1 := by
  obtain ⟨hfound, htake⟩ := hear_of_some (g := g) h
  rw [htake, take, if_pos hfound]

theorem hear_overwrite (h : t.result? = some r) : (g.hear t).overwrite = false := by
  obtain ⟨hfound, htake⟩ := hear_of_some (g := g) h
  rw [htake, take, if_pos hfound]

theorem hear_foundLocal : (g.hear t).foundLocal = (g.foundLocal || t.foundLocally) := by
  unfold Turn.foundLocally
  cases hresult : t.result? with
  | none => simp [hear_of_none hresult]
  | some r =>
    obtain ⟨hfound, htake⟩ := hear_of_some (g := g) hresult
    rw [htake, take, if_pos hfound]
    simp

end Gathering

/-! ## A round of turns -/

/-- Turns one after the other, from a world and a gathering to those after the last turn.
Each provider is told what has been gathered before its turn. -/
inductive Round : World σ → Gathering → List (Turn σ) → World σ → Gathering → Prop where
  /-- nobody is asked -/
  | done (w : World σ) (g : Gathering) : Round w g [] w g
  /-- a provider is asked, and then others are -/
  | next {w w' : World σ} {g g' : Gathering} {turns : List (Turn σ)} (p : MetadataProvider σ)
      (active : w.cancelled = false)
      (rest : Round (p.afterTurn g.info w) (g.hear (p.turn g.info w)) turns w' g') :
      Round w g (p.turn g.info w :: turns) w' g'

namespace Round

variable {w mid w' : World σ} {g gmid g' : Gathering} {turns more : List (Turn σ)}

theorem append (h : Round w g turns mid gmid) (hmore : Round mid gmid more w' g') :
    Round w g (turns ++ more) w' g' := by
  induction h with
  | done => exact hmore
  | next p hactive _ ih => exact .next p hactive (ih hmore)

theorem journal_eq (h : Round w g turns w' g') :
    w'.journal = w.journal ++ turns.map fun t => .called t.call := by
  induction h with
  | done => exact (List.append_nil _).symm
  | next p _ _ ih =>
    rw [ih, MetadataProvider.afterTurn, List.append_assoc]
    rfl

/-- The item is what the results make of it. -/
theorem item_eq (h : Round w g turns w' g') :
    g'.item = g.item.withResults g.overwrite (turns.filterMap Turn.result?) := by
  induction h with
  | done => rfl
  | @next w w' g g' turns p _ _ ih =>
    rw [ih]
    cases hresult : (p.turn g.info w).result? with
    | none => rw [List.filterMap_cons_none hresult, Gathering.hear_of_none hresult]
    | some r =>
      rw [List.filterMap_cons_some hresult, Gathering.hear_item hresult,
        Gathering.hear_overwrite hresult]
      rfl

/-- A provider is told something and answers in some surroundings. -/
theorem answer_eq (h : Round w g turns w' g') :
    ∀ t ∈ turns, ∃ s, t.answer = (t.provider.fetch t.info s).outcome := by
  induction h with
  | done => simp
  | @next w w' g g' turns p _ _ ih =>
    rw [List.forall_mem_cons]
    exact ⟨⟨w.surroundings, rfl⟩, ih⟩

theorem cancelled_eq (h : Round w g turns w' g')
    (huncut : ∀ t ∈ turns, ∀ info s, (t.provider.fetch info s).fires = false) :
    w'.cancelled = w.cancelled := by
  induction h with
  | done => rfl
  | @next w w' g g' turns p _ _ ih =>
    obtain ⟨hfirst, hrest⟩ := List.forall_mem_cons.mp huncut
    have hfires : (p.fetch g.info w.surroundings).fires = false := hfirst g.info w.surroundings
    rw [ih hrest, MetadataProvider.afterTurn, hfires, Bool.or_false]

theorem foundLocal_eq (h : Round w g turns w' g') :
    g'.foundLocal = (g.foundLocal || turns.any Turn.foundLocally) := by
  induction h with
  | done => simp
  | next p _ _ ih => rw [ih, Gathering.hear_foundLocal, List.any_cons, Bool.or_assoc]

theorem gathering_eq (h : Round w g turns w' g') : g' = turns.foldl Gathering.hear g := by
  induction h with
  | done => rfl
  | next p _ _ ih => rw [ih, List.foldl_cons]

/-- The first result takes the right to overwrite. -/
theorem overwrite_eq (h : Round w g turns w' g') :
    g'.overwrite = (g.overwrite && (turns.filterMap Turn.result?).isEmpty) := by
  induction h with
  | done => simp
  | @next w w' g g' turns p _ _ ih =>
    cases hresult : (p.turn g.info w).result? with
    | none => rw [ih, List.filterMap_cons_none hresult, Gathering.hear_of_none hresult]
    | some r =>
      rw [ih, List.filterMap_cons_some hresult, Gathering.hear_overwrite hresult]
      simp

end Round

/-- The results of providers of which it is known what they answer. -/
theorem filterMap_result?_eq {turns : List (Turn σ)}
    {answers : MetadataProvider σ → Except Failure MetadataResult}
    (h : ∀ t ∈ turns, t.answer = answers t.provider) :
    turns.filterMap Turn.result? =
      (turns.map Turn.provider).filterMap fun p => resultIn? (answers p) := by
  rw [List.filterMap_map]
  refine List.filterMap_congr fun t ht => ?_
  rw [Turn.result?, h t ht]
  rfl

/-- How asking providers in order ends: all of them were asked, or a cancellation was
found after the first few. -/
inductive RoundEnd (w : World σ) (g : Gathering) (providers : List (MetadataProvider σ)) :
    EStateM.Result Interrupt (World σ) Gathering → Prop where
  | all {turns : List (Turn σ)} {w' : World σ} {g' : Gathering} (round : Round w g turns w' g')
      (asked : turns.map Turn.provider = providers) : RoundEnd w g providers (.ok g' w')
  | stopped {turns : List (Turn σ)} {w' : World σ} {g' : Gathering}
      (round : Round w g turns w' g') (asked : turns.map Turn.provider <+: providers)
      (cancelled : w'.cancelled = true) :
      RoundEnd w g providers (.error (.failed .cancelled) w')

theorem RoundEnd.bind {w : World σ} {g : Gathering} {first rest : List (MetadataProvider σ)}
    {x : RefreshM σ Gathering} {f : Gathering → RefreshM σ Gathering}
    (hx : RoundEnd w g first (x w))
    (hf : ∀ {turns : List (Turn σ)} {mid : World σ} {gmid : Gathering},
      Round w g turns mid gmid → turns.map Turn.provider = first →
        RoundEnd mid gmid rest (f gmid mid)) :
    RoundEnd w g (first ++ rest) ((x >>= f) w) := by
  cases hrun : x w with
  | error e mid =>
    rw [hrun] at hx
    rw [bind_of_error hrun]
    cases hx with
    | stopped hround hasked hcancelled =>
      exact .stopped hround (hasked.trans (List.prefix_append _ _)) hcancelled
  | ok gmid mid =>
    rw [hrun] at hx
    rw [bind_of_ok hrun]
    cases hx with
    | all hround hasked =>
      have hend := hf hround hasked
      cases hlast : f gmid mid with
      | ok g' w' =>
        rw [hlast] at hend
        cases hend with
        | all hround' hasked' =>
          exact .all (hround.append hround') (by rw [List.map_append, hasked, hasked'])
      | error e w' =>
        rw [hlast] at hend
        cases hend with
        | stopped hround' hasked' hcancelled =>
          refine .stopped (hround.append hround') ?_ hcancelled
          rw [List.map_append, hasked]
          exact (List.prefix_append_right_inj first).mpr hasked'

/-! ## The providers of some sources -/

theorem MetadataProvider.consult_of_cancelled (p : MetadataProvider σ) (g : Gathering)
    {w : World σ} (h : w.cancelled = true) :
    p.consult g w = .error (.failed .cancelled) w := bind_of_error (checkCancelled_of_cancelled h)

/-- A provider that is asked has its turn.  Only a failure at the time of a cancellation
ends the run with it. -/
theorem MetadataProvider.consult_of_active (p : MetadataProvider σ) (g : Gathering)
    {w : World σ} (h : w.cancelled = false) :
    p.consult g w =
      match (p.fetch g.info w.surroundings).outcome with
      | .ok r => .ok (g.take p.source r) (p.afterTurn g.info w)
      | .error _ =>
        if (p.afterTurn g.info w).cancelled then
          .error (.failed .cancelled) (p.afterTurn g.info w)
        else .ok g (p.afterTurn g.info w) := by
  have hask : RefreshM.ask (.fetch p.name g.info) (p.fetch g.info) w =
      .ok (p.fetch g.info w.surroundings).outcome (p.afterTurn g.info w) := ask_apply _ _ w
  unfold consult
  rw [bind_of_ok (checkCancelled_of_active h), bind_of_ok hask]
  cases (p.fetch g.info w.surroundings).outcome with
  | ok r => rfl
  | error f =>
    dsimp only
    split
    · rename_i hcancelled
      exact bind_of_error (checkCancelled_of_cancelled hcancelled)
    · rename_i hactive
      exact bind_of_ok (checkCancelled_of_active (by simpa using hactive))

/-- A provider that is asked is heard, unless the run ends with its failure. -/
theorem MetadataProvider.consult_hear (p : MetadataProvider σ) (g : Gathering) {w : World σ}
    (h : w.cancelled = false) :
    p.consult g w = .ok (g.hear (p.turn g.info w)) (p.afterTurn g.info w) ∨
      (p.consult g w = .error (.failed .cancelled) (p.afterTurn g.info w) ∧
        (p.afterTurn g.info w).cancelled = true) := by
  rw [p.consult_of_active g h]
  unfold Gathering.hear turn
  cases (p.fetch g.info w.surroundings).outcome with
  | ok r => exact Or.inl rfl
  | error f =>
    dsimp only
    split
    · rename_i hfired
      exact Or.inr ⟨rfl, hfired⟩
    · exact Or.inl rfl

theorem roundEnd_consult (p : MetadataProvider σ) (g : Gathering) (w : World σ) :
    RoundEnd w g [p] (p.consult g w) := by
  cases hcancelled : w.cancelled with
  | true =>
    rw [p.consult_of_cancelled g hcancelled]
    exact .stopped (.done w g) (List.nil_prefix) hcancelled
  | false =>
    have hround : Round w g [p.turn g.info w] (p.afterTurn g.info w)
        (g.hear (p.turn g.info w)) := .next p hcancelled (.done _ _)
    obtain hheard | ⟨hstopped, hfired⟩ := p.consult_hear g hcancelled
    · rw [hheard]
      exact .all hround rfl
    · rw [hstopped]
      exact .stopped hround (List.prefix_refl _) hfired

theorem roundEnd_foldlM (providers : List (MetadataProvider σ)) (g : Gathering) (w : World σ) :
    RoundEnd w g providers (providers.foldlM (fun g p => p.consult g) g w) := by
  induction providers generalizing g w with
  | nil => exact .all (.done w g) rfl
  | cons p rest ih =>
    have hfirst := roundEnd_consult p g w
    exact hfirst.bind fun {_ mid gmid} _ _ => ih gmid mid

/-- The providers of a source that are asked at this point. -/
def Gathering.askedOf (providers : List (MetadataProvider σ)) (options : RefreshOptions)
    (g : Gathering) (source : MetadataSource) : List (MetadataProvider σ) :=
  if g.consults options source then providers.filter (·.source == source) else []

theorem roundEnd_consultSource (providers : List (MetadataProvider σ)) (options : RefreshOptions)
    (g : Gathering) (source : MetadataSource) (w : World σ) :
    RoundEnd w g (g.askedOf providers options source)
      (g.consultSource providers options source w) := by
  unfold Gathering.consultSource Gathering.askedOf
  split
  · exact roundEnd_foldlM _ g w
  · exact .all (.done w g) rfl

theorem Gathering.source_of_mem_askedOf {providers : List (MetadataProvider σ)}
    {options : RefreshOptions} {g : Gathering} {source : MetadataSource} {p : MetadataProvider σ}
    (h : p ∈ g.askedOf providers options source) : p.source = source := by
  unfold askedOf at h
  split at h
  · simpa using (List.mem_filter.mp h).2
  · cases h

/-- Turns of providers of other sources find nothing locally. -/
theorem foundLocally_eq_false {sources : List MetadataSource} (hsources : .disk ∉ sources)
    {providers : List (MetadataProvider σ)} {options : RefreshOptions} {g : Gathering}
    {turns : List (Turn σ)}
    (hasked : turns.map Turn.provider <+: sources.flatMap (g.askedOf providers options)) :
    turns.any Turn.foundLocally = false := by
  refine List.any_eq_false.mpr fun t ht hfound => hsources ?_
  obtain ⟨s, hs, hof⟩ := List.mem_flatMap.mp (hasked.subset (List.mem_map_of_mem ht))
  have hdisk : t.provider.source = .disk := by simpa using (Bool.and_eq_true_iff.mp hfound).1
  rwa [← Gathering.source_of_mem_askedOf hof, hdisk] at hs

/-- By induction on the sources.  None of them is local, so that it stays as it is whether
a local provider has had something. -/
theorem roundEnd_sources (providers : List (MetadataProvider σ)) (options : RefreshOptions)
    (sources : List MetadataSource) (hsources : .disk ∉ sources) (g : Gathering) (w : World σ) :
    RoundEnd w g (sources.flatMap (g.askedOf providers options))
      (sources.foldlM (Gathering.consultSource providers options) g w) := by
  induction sources generalizing g w with
  | nil => exact .all (.done w g) rfl
  | cons s rest ih =>
    obtain ⟨hs, hrest⟩ := not_or.mp (mt List.mem_cons.mpr hsources)
    rw [List.flatMap_cons]
    refine RoundEnd.bind (f := fun g => rest.foldlM (Gathering.consultSource providers options) g)
      (roundEnd_consultSource providers options g s w) ?_
    intro turns mid gmid hround hasked
    have hsame : gmid.foundLocal = g.foundLocal := by
      have hothers : MetadataSource.disk ∉ [s] := by simpa using hs
      have hprefix : turns.map Turn.provider <+: [s].flatMap (g.askedOf providers options) := by
        simp [hasked]
      rw [hround.foundLocal_eq, foundLocally_eq_false hothers hprefix, Bool.or_false]
    have hasks : g.askedOf providers options = gmid.askedOf providers options := by
      funext source
      unfold Gathering.askedOf Gathering.consults
      rw [hsame]
    rw [hasks]
    exact ih hrest gmid mid

/-! ## A whole gathering -/

/-- Whether the remote providers are left out, given whether a local one had something. -/
def leavesOutRemote (options : RefreshOptions) (foundLocally : Bool) : Bool :=
  foundLocally && !(options.metadataMode == .full || options.replaceMetadata)

/-- The providers that are asked, in order, of those that are selected: the local ones,
the remote ones unless they are left out, the forced ones and the custom ones. -/
def callOrder (selected : List (MetadataProvider σ)) (options : RefreshOptions)
    (foundLocally : Bool) : List (MetadataProvider σ) :=
  let of (source : MetadataSource) := selected.filter (·.source == source)
  of .disk ++ ((if leavesOutRemote options foundLocally then [] else of .remote) ++
    (of .forced ++ of .custom))

theorem callOrder_eq (selected : List (MetadataProvider σ)) (options : RefreshOptions)
    (g : Gathering) : callOrder selected options g.foundLocal =
      selected.filter (·.source == .disk) ++
        [MetadataSource.remote, .forced, .custom].flatMap (g.askedOf selected options) := by
  unfold callOrder leavesOutRemote Gathering.askedOf Gathering.consults
  cases g.foundLocal with
  | false => simp
  | true =>
    cases hall : options.metadataMode == .full || options.replaceMetadata <;>
      simp [hall, Bool.or_assoc]

/-- By induction on the providers: each is the next of its source. -/
theorem perm_of_sources (providers : List (MetadataProvider σ)) :
    (providers.filter (·.source == .disk) ++ (providers.filter (·.source == .remote) ++
      (providers.filter (·.source == .forced) ++ providers.filter (·.source == .custom)))).Perm
        providers := by
  induction providers with
  | nil => simp
  | cons p rest ih =>
    have hbetween {before after : List (MetadataProvider σ)}
        (h : (before ++ after).Perm rest) : (before ++ p :: after).Perm (p :: rest) :=
      List.perm_middle.trans (h.cons p)
    cases hsource : p.source with
    | disk => simpa [hsource] using ih
    | remote => simpa [hsource] using hbetween ih
    | forced =>
      rw [← List.append_assoc] at ih
      simpa [hsource] using hbetween ih
    | custom =>
      rw [← List.append_assoc, ← List.append_assoc] at ih
      simpa [hsource] using hbetween ih

/-- Each of the selected providers has one turn, but for the remote ones if these are left
out. -/
theorem callOrder_perm (selected : List (MetadataProvider σ)) (options : RefreshOptions)
    (foundLocally : Bool) :
    (callOrder selected options foundLocally).Perm
      (selected.filter fun p =>
        !(p.source == .remote && leavesOutRemote options foundLocally)) := by
  cases hleft : leavesOutRemote options foundLocally with
  | false =>
    rw [List.filter_eq_self.mpr (by simp)]
    simpa [callOrder, hleft] using perm_of_sources selected
  | true =>
    have hof {s : MetadataSource} (hs : s ≠ .remote) :
        (selected.filter (·.source != .remote)).filter (·.source == s) =
          selected.filter (·.source == s) := by
      rw [List.filter_filter]
      refine List.filter_congr fun p _ => ?_
      by_cases hp : p.source = s <;> simp [hp, hs]
    have hnone : (selected.filter (·.source != .remote)).filter (·.source == .remote) = [] := by
      simp
    have hperm := perm_of_sources (selected.filter (·.source != .remote))
    rw [hof (by decide), hnone, hof (by decide), hof (by decide)] at hperm
    simpa [callOrder, hleft, bne] using hperm

theorem mem_of_mem_callOrder {selected : List (MetadataProvider σ)} {options : RefreshOptions}
    {foundLocally : Bool} {p : MetadataProvider σ}
    (h : p ∈ callOrder selected options foundLocally) : p ∈ selected :=
  (List.mem_filter.mp ((callOrder_perm selected options foundLocally).mem_iff.mp h)).1

namespace Manager

variable (m : Manager σ)

/-- The providers that a refresh of an item may ask, in the order of selection. -/
def selected (state : σ) (item : Item) : List (MetadataProvider σ) :=
  m.metadataProviders item (m.host.libraryOptions state item) false false

/-- How gathering metadata ends: the providers were asked in order, or a cancellation was
found after the first few. -/
inductive GatherEnd (item : Item) (options : RefreshOptions) (w : World σ) :
    EStateM.Result Interrupt (World σ) (Item × Update) → Prop where
  | gathered {turns : List (Turn σ)} {w' : World σ} {g : Gathering}
      (round : Round w (m.gathering item options) turns w' g)
      (asked : turns.map Turn.provider =
        callOrder (m.selected w.state item) options (turns.any Turn.foundLocally)) :
      GatherEnd item options w (.ok (g.item, g.update) w')
  | stopped {turns : List (Turn σ)} {w' : World σ} {g : Gathering}
      (round : Round w (m.gathering item options) turns w' g)
      (asked : turns.map Turn.provider <+:
        callOrder (m.selected w.state item) options (turns.any Turn.foundLocally))
      (cancelled : w'.cancelled = true) :
      GatherEnd item options w (.error (.failed .cancelled) w')

/-- The sources one after the other, of those that are selected in the world as it is. -/
theorem gatherMetadata_eq (item : Item) (options : RefreshOptions) (w : World σ) :
    m.gatherMetadata item options w =
      ((Gathering.consultSource (m.selected w.state item) options (m.gathering item options)
          .disk >>= fun g => [MetadataSource.remote, .forced, .custom].foldlM
            (Gathering.consultSource (m.selected w.state item) options) g) >>=
        fun g => pure (g.item, g.update)) w := rfl

/-- The local providers come first.  What they have decides on the rest. -/
theorem gatherMetadata_end (item : Item) (options : RefreshOptions) (w : World σ) :
    m.GatherEnd item options w (m.gatherMetadata item options w) := by
  have hlocal := roundEnd_consultSource (m.selected w.state item) options
    (m.gathering item options) .disk w
  have hfirst : (m.gathering item options).askedOf (m.selected w.state item) options .disk =
      (m.selected w.state item).filter (·.source == .disk) := rfl
  rw [hfirst] at hlocal
  rw [gatherMetadata_eq]
  cases hres : Gathering.consultSource (m.selected w.state item) options
      (m.gathering item options) .disk w with
  | error e mid =>
    rw [hres] at hlocal
    rw [bind_of_error (bind_of_error hres)]
    cases hlocal with
    | stopped hround hasked hcancelled =>
      exact .stopped hround (hasked.trans (List.prefix_append _ _)) hcancelled
  | ok gmid mid =>
    rw [hres] at hlocal
    cases hlocal with
    | @all turns _ _ hround hasked =>
      have hfound : gmid.foundLocal = turns.any Turn.foundLocally := hround.foundLocal_eq
      have hothers := roundEnd_sources (m.selected w.state item) options
        [.remote, .forced, .custom] (by decide) gmid mid
      have hfound_append {more : List (Turn σ)}
          (hmore : more.map Turn.provider <+: [MetadataSource.remote, .forced, .custom].flatMap
            (gmid.askedOf (m.selected w.state item) options)) :
          (turns ++ more).any Turn.foundLocally = gmid.foundLocal := by
        rw [List.any_append, foundLocally_eq_false (by decide) hmore, Bool.or_false, hfound]
      cases hrest : [MetadataSource.remote, .forced, .custom].foldlM
          (Gathering.consultSource (m.selected w.state item) options) gmid mid with
      | error e w' =>
        rw [hrest] at hothers
        rw [bind_of_error ((bind_of_ok hres).trans hrest)]
        cases hothers with
        | stopped hround' hasked' hcancelled =>
          refine .stopped (hround.append hround') ?_ hcancelled
          rw [hfound_append hasked', callOrder_eq, List.map_append, hasked]
          exact (List.prefix_append_right_inj _).mpr hasked'
      | ok g w' =>
        rw [hrest] at hothers
        rw [bind_of_ok ((bind_of_ok hres).trans hrest)]
        cases hothers with
        | all hround' hasked' =>
          refine .gathered (hround.append hround') ?_
          rw [hfound_append (hasked' ▸ List.prefix_refl _), callOrder_eq, List.map_append, hasked,
            hasked']

/-- The turns of a gathering, and its result by what they have made of it. -/
theorem gatherMetadata_round (item : Item) (options : RefreshOptions) (w : World σ) :
    ∃ turns w' g, Round w (m.gathering item options) turns w' g ∧
      let expected := callOrder (m.selected w.state item) options (turns.any Turn.foundLocally)
      (m.gatherMetadata item options w = .ok (g.item, g.update) w' ∧
          turns.map Turn.provider = expected) ∨
        (m.gatherMetadata item options w = .error (.failed .cancelled) w' ∧
          w'.cancelled = true ∧ turns.map Turn.provider <+: expected) := by
  have hend := m.gatherMetadata_end item options w
  cases hrun : m.gatherMetadata item options w with
  | ok found w' =>
    rw [hrun] at hend
    cases hend with
    | gathered hround hasked => exact ⟨_, w', _, hround, .inl ⟨rfl, hasked⟩⟩
  | error e w' =>
    rw [hrun] at hend
    cases hend with
    | stopped hround hasked hcancelled =>
      exact ⟨_, w', _, hround, .inr ⟨rfl, hcancelled, hasked⟩⟩

end Manager

end MediaRefresh
