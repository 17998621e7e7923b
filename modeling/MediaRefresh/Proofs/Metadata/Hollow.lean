import MediaRefresh.Proofs.Metadata.LookupIds

/-!
# Metadata: results in which there is nothing to use

A result is hollow when no item is changed by it, whatever may be overwritten.  The empty
result is hollow, but others are too, such as one with a blank name, and those count as if
something had been found: they use up the right to overwrite, a local provider has found
something with them and an import is reported, and keys without ids go into later lookups.
A refresh in which such a result comes too late for any of this is the one in which its
provider has answered with the empty result.
-/

set_option autoImplicit false

namespace MediaRefresh

open RefreshM

variable {σ : Type}

/-! ## Hollow results -/

namespace MetadataResult

/-- There is nothing in the result but a name that is blank and keys without ids. -/
structure Hollow (r : MetadataResult) : Prop where
  name : ∀ n ∈ r.name, Text.blank n = true
  overview : r.overview = none
  productionYear : r.productionYear = none
  premiereDate : r.premiereDate = none
  genres : r.genres = []
  communityRating : r.communityRating = none
  ids : ∀ e ∈ r.externalIds.entries, e.2 = ""

instance (r : MetadataResult) : Decidable r.Hollow :=
  decidable_of_iff (((∀ n ∈ r.name, Text.blank n = true) ∧ r.overview = none ∧
      r.productionYear = none) ∧ (r.premiereDate = none ∧ r.genres = [] ∧
      r.communityRating = none) ∧ ∀ e ∈ r.externalIds.entries, e.2 = "")
    ⟨fun ⟨⟨hname, hoverview, hyear⟩, ⟨hdate, hgenres, hrating⟩, hids⟩ =>
        ⟨hname, hoverview, hyear, hdate, hgenres, hrating, hids⟩,
      fun h => ⟨⟨h.name, h.overview, h.productionYear⟩,
        ⟨h.premiereDate, h.genres, h.communityRating⟩, h.ids⟩⟩

theorem hasMetadata_eq_false_iff {r : MetadataResult} : r.hasMetadata = false ↔ r = .empty := by
  constructor
  · intro hnothing
    obtain ⟨name, overview, year, date, genres, rating, ⟨entries, sorted⟩⟩ := r
    simp only [hasMetadata, ExternalIds.isEmpty, Bool.or_eq_false_iff, Option.isSome_eq_false_iff,
      Option.isNone_iff_eq_none, Bool.not_eq_false', List.isEmpty_iff] at hnothing
    obtain ⟨⟨⟨⟨⟨⟨rfl, rfl⟩, rfl⟩, rfl⟩, rfl⟩, rfl⟩, rfl⟩ := hnothing
    rfl
  · rintro rfl
    exact hasMetadata_empty

theorem Hollow.applyTo_eq {r : MetadataResult} (h : r.Hollow) (overwrite : Bool) (item : Item) :
    r.applyTo overwrite item = (item, false) := by
  have hname : mergeName overwrite item.name r.name = (item.name, false) := by
    unfold mergeName
    cases hsource : r.name with
    | none => rfl
    | some n => simp [h.name n hsource]
  have hids : r.externalIds.entries.foldl (mergeId overwrite) (item.externalIds, false) =
      (item.externalIds, false) := by
    refine List.foldlRecOn (motive := fun acc => acc = (item.externalIds, false)) _ _ rfl ?_
    rintro acc rfl e he
    unfold mergeId
    rw [if_pos (h.ids e he)]
  unfold applyTo
  rw [hname, hids, h.overview, h.productionYear, h.premiereDate, h.communityRating, h.genres]
  rfl

/-- A result is hollow exactly when it never changes an item.  An item that is bare shows
anything that there is in it. -/
theorem hollow_iff {r : MetadataResult} :
    r.Hollow ↔ ∀ overwrite item, r.applyTo overwrite item = (item, false) := by
  refine ⟨fun h overwrite item => h.applyTo_eq overwrite item, fun h => ?_⟩
  have hbare := congrArg Prod.fst (h false (.bare .zero .movie ""))
  have hname : (mergeName false "" r.name).1 = "" := congrArg Item.name hbare
  have hfield {α : Type} {same : α → α → Bool} {source : Option α}
      (hnone : (mergeField same false none source).1 = none) : source = none := by
    cases source with
    | none => rfl
    | some v => simp [mergeField] at hnone
  have hgenres : (mergeGenres false [] r.genres).1 = [] := congrArg Item.genres hbare
  have hids : (r.externalIds.entries.foldl (mergeId false) (.empty, false)).1 = .empty :=
    congrArg Item.externalIds hbare
  refine ⟨?_, hfield (congrArg Item.overview hbare), hfield (congrArg Item.productionYear hbare),
    hfield (congrArg Item.premiereDate hbare), ?_,
    hfield (congrArg Item.communityRating hbare), ?_⟩
  · intro n hn
    have hsource : r.name = some n := hn
    rw [hsource] at hname
    apply Bool.of_not_eq_false
    intro hsaid
    have hblank : Text.blank "" = true := by decide
    by_cases hempty : n = ""
    · rw [hempty, hblank] at hsaid
      cases hsaid
    · simp [mergeName, hsaid, hblank, Ne.symm hempty, hempty] at hname
  · cases hsome : r.genres with
    | nil => rfl
    | cons g rest => simp [mergeGenres, hsome] at hgenres
  · intro e he
    by_contra hvalue
    have hfound : (r.externalIds.entries.foldl (mergeId false) (.empty, false)).1.get e.1 =
        (ExternalIds.empty.get e.1).or (ExternalIds.idsUnder e.1 r.externalIds.entries).head? :=
      foldl_mergeId_fill
    rw [hids] at hfound
    have hunder : e.2 ∈ ExternalIds.idsUnder e.1 r.externalIds.entries := by
      unfold ExternalIds.idsUnder
      exact List.mem_map_of_mem (List.mem_filter.mpr ⟨he, by simp [hvalue]⟩)
    cases hlist : ExternalIds.idsUnder e.1 r.externalIds.entries with
    | nil => simp [hlist] at hunder
    | cons first rest =>
      rw [hlist] at hfound
      cases hfound

end MetadataResult

/-! ## The marks of a hollow result -/

/-- A gathering after a hollow result that counts: the item is as it was. -/
def Gathering.marked (g : Gathering) (source : MetadataSource) (r : MetadataResult) :
    Gathering where
  item := g.item
  info := { g.info with externalIds := g.info.externalIds.mergeMissing r.externalIds }
  update := if source == .disk then g.update.add .metadataImport else g.update
  overwrite := false
  foundLocal := g.foundLocal || source == .disk

theorem Gathering.hear_of_hollow {g : Gathering} {t : Turn σ} {r : MetadataResult}
    (hanswer : t.answer = .ok r) (h : r.Hollow) :
    g.hear t = if r = .empty then g else g.marked t.provider.source r := by
  unfold hear
  rw [hanswer]
  dsimp only
  unfold take
  cases hfound : r.hasMetadata with
  | false => simp [MetadataResult.hasMetadata_eq_false_iff.mp hfound]
  | true =>
    have hcounts : r ≠ .empty := by
      rintro rfl
      cases hfound
    rw [if_pos rfl, if_neg hcounts, h.applyTo_eq]
    unfold marked
    cases t.provider.source <;> rfl

theorem Gathering.marked_eq_self_iff {g : Gathering} {source : MetadataSource}
    {r : MetadataResult} (himported : g.foundLocal = true → g.update.holds .metadataImport = true) :
    g.marked source r = g ↔ g.overwrite = false ∧ (source = .disk → g.foundLocal = true) ∧
      ∀ e ∈ r.externalIds.entries, g.info.externalIds.contains e.1 = true := by
  rw [← ExternalIds.mergeMissing_eq_self_iff]
  constructor
  · intro hsame
    refine ⟨(congrArg overwrite hsame).symm, ?_, congrArg (fun g => g.info.externalIds) hsame⟩
    rintro rfl
    have hfound := congrArg foundLocal hsame
    simpa [marked] using hfound.symm
  · rintro ⟨hoverwrite, hfound, hids⟩
    have hlocal : (g.foundLocal || source == .disk) = g.foundLocal := by
      by_cases hdisk : source = .disk
      · simp [hfound hdisk]
      · simp [hdisk]
    have hupdate : (if source == .disk then g.update.add .metadataImport else g.update) =
        g.update := by
      by_cases hdisk : source = .disk
      · rw [if_pos (beq_iff_eq.mpr hdisk), Update.add_of_holds (himported (hfound hdisk))]
      · rw [if_neg (by simp [hdisk])]
    unfold marked
    rw [hids, ← hoverwrite, hlocal, hupdate]

/-! ## What a round has used up -/

namespace Round

variable {w w' : World σ} {g g' : Gathering} {turns : List (Turn σ)}

/-- Once a local provider has found something an import has been reported. -/
theorem imported (h : Round w g turns w' g')
    (hbefore : g.foundLocal = true → g.update.holds .metadataImport = true) :
    g'.foundLocal = true → g'.update.holds .metadataImport = true := by
  induction h with
  | done => exact hbefore
  | @next w w' g g' turns p _ _ ih =>
    refine ih fun hfound => ?_
    cases hresult : (p.turn g.info w).result? with
    | none =>
      rw [Gathering.hear_of_none hresult] at hfound ⊢
      exact hbefore hfound
    | some r =>
      obtain ⟨hmetadata, htake⟩ := Gathering.hear_of_some (g := g) hresult
      rw [htake, Gathering.take, if_pos hmetadata] at hfound ⊢
      cases hsource : p.source with
      | disk => simp [MetadataProvider.turn, hsource]
      | _ =>
        have hlocal : g.foundLocal = true := by
          simpa [MetadataProvider.turn, hsource] using hfound
        have hholds := hbefore hlocal
        simp only [MetadataProvider.turn, hsource]
        split
        · simp [hholds]
        · exact hholds

end Round

/-! ## Results that come too late -/

/-- A result comes too late to use anything up: no right to overwrite is left, nothing is left
to be found locally, and the lookup has all of its keys already. -/
structure Late (item : Item) (options : RefreshOptions) (before : List (Turn σ))
    (source : MetadataSource) (r : MetadataResult) : Prop where
  overwritten : (options.replaceMetadata && !item.locked) = true →
    before.filterMap Turn.result? ≠ []
  found : source = .disk → before.any Turn.foundLocally = true
  known : ∀ e ∈ r.externalIds.entries, item.externalIds.contains e.1 = true ∨
    ∃ r' ∈ before.filterMap Turn.result?, r'.externalIds.contains e.1 = true

/-- A hollow result leaves a mark unless it is empty or comes too late. -/
theorem Round.hear_hollow_eq_self_iff {m : Manager σ} {item : Item} {options : RefreshOptions}
    {w mid : World σ} {g : Gathering} {before : List (Turn σ)} {t : Turn σ} {r : MetadataResult}
    (h : Round w (m.gathering item options) before mid g) (hanswer : t.answer = .ok r)
    (hhollow : r.Hollow) :
    g.hear t = g ↔ r = .empty ∨ Late item options before t.provider.source r := by
  rw [Gathering.hear_of_hollow hanswer hhollow]
  by_cases hempty : r = .empty
  · simp [hempty]
  · have himported := h.imported (fun hfound => by cases hfound)
    have hkeys (key : String) : g.info.externalIds.contains key = true ↔
        item.externalIds.contains key = true ∨
          ∃ r' ∈ before.filterMap Turn.result?, r'.externalIds.contains key = true := by
      rw [h.contains_info, Bool.or_eq_true, List.any_eq_true]
      rfl
    have hfound : g.foundLocal = before.any Turn.foundLocally := by
      rw [h.foundLocal_eq]
      exact Bool.false_or _
    have hoverwrite : g.overwrite = false ↔ ((options.replaceMetadata && !item.locked) = true →
        before.filterMap Turn.result? ≠ []) := by
      rw [h.overwrite_eq, Bool.and_eq_false_imp]
      simp only [ne_eq, List.isEmpty_eq_false_iff]
      rfl
    rw [if_neg hempty, Gathering.marked_eq_self_iff himported, hoverwrite, hfound,
      or_iff_right hempty]
    simp only [hkeys]
    exact ⟨fun ⟨hright, hlocal, hknown⟩ => ⟨hright, hlocal, hknown⟩,
      fun hlate => ⟨hlate.overwritten, hlate.found, hlate.known⟩⟩

/-! ## Answers put down to the empty result -/

/-- The answers are those of the providers themselves, but for hollow results of silenced
ones, which may have been put down to the empty result. -/
def Answers.Silences (answers : Answers σ) (silenced : MetadataProvider σ → Prop) : Prop :=
  ∀ p info s, answers p info s = p.fetch info s ∨
    (silenced p ∧ ∃ r, (p.fetch info s).outcome = .ok r ∧ r.Hollow ∧
      answers p info s = { p.fetch info s with outcome := .ok .empty })

/-- The answers of the providers themselves, with the empty result for every hollow one of a
provider. -/
def Answers.hush (name : String) : Answers σ := fun p info s =>
  match (p.fetch info s).outcome with
  | .ok r =>
    if p.name = name ∧ r.Hollow then { p.fetch info s with outcome := .ok .empty }
    else p.fetch info s
  | .error _ => p.fetch info s

theorem Answers.hush_silences (name : String) :
    (hush name : Answers σ).Silences fun p => p.name = name := by
  intro p info s
  unfold hush
  cases houtcome : (p.fetch info s).outcome with
  | error f => exact .inl rfl
  | ok r =>
    dsimp only
    split
    · rename_i hhushed
      exact .inr ⟨hhushed.1, r, rfl, hhushed.2, rfl⟩
    · exact .inl rfl

/-- No hollow result of a silenced provider leaves a mark on the way from a gathering through
turns. -/
def Unmarked (silenced : MetadataProvider σ → Prop) (g : Gathering) (turns : List (Turn σ)) :
    Prop :=
  ∀ before t after r, turns = before ++ t :: after → silenced t.provider → t.answer = .ok r →
    r.Hollow → (before.foldl Gathering.hear g).hear t = before.foldl Gathering.hear g

theorem Unmarked.of_append {silenced : MetadataProvider σ → Prop} {g : Gathering}
    {turns more : List (Turn σ)} (h : Unmarked silenced g (turns ++ more)) :
    Unmarked silenced g turns ∧ Unmarked silenced (turns.foldl Gathering.hear g) more := by
  constructor
  · intro before t after r hsplit
    refine h before t (after ++ more) r ?_
    rw [hsplit, List.append_assoc]
    rfl
  · intro before t after r hsplit
    have hlater := h (turns ++ before) t after r (by rw [hsplit, List.append_assoc])
    rwa [List.foldl_append] at hlater

/-- A run of providers among some that another run ends like, unless a hollow result leaves a
mark on the way. -/
inductive RunsAs (silenced : MetadataProvider σ → Prop) (among : List (MetadataProvider σ))
    (w : World σ) (g : Gathering) (other : EStateM.Result Interrupt (World σ) Gathering) :
    EStateM.Result Interrupt (World σ) Gathering → Prop where
  | all {turns : List (Turn σ)} {w' : World σ} {g' : Gathering} (round : Round w g turns w' g')
      (asked : ∀ t ∈ turns, t.provider ∈ among)
      (same : Unmarked silenced g turns → other = .ok g' w') :
      RunsAs silenced among w g other (.ok g' w')
  | stopped {turns : List (Turn σ)} {w' : World σ} {g' : Gathering}
      (round : Round w g turns w' g') (asked : ∀ t ∈ turns, t.provider ∈ among)
      (cancelled : w'.cancelled = true)
      (same : Unmarked silenced g turns → other = .error (.failed .cancelled) w') :
      RunsAs silenced among w g other (.error (.failed .cancelled) w')

namespace RunsAs

variable {silenced : MetadataProvider σ → Prop} {among : List (MetadataProvider σ)}
  {w : World σ} {g : Gathering}

protected theorem pure : RunsAs silenced among w g
    ((pure g : RefreshM σ Gathering) w) ((pure g : RefreshM σ Gathering) w) := by
  have hasked : ∀ t ∈ ([] : List (Turn σ)), t.provider ∈ among := by simp
  exact .all (.done w g) hasked fun _ => rfl

protected theorem bind {x y : RefreshM σ Gathering} {f f' : Gathering → RefreshM σ Gathering}
    (hx : RunsAs silenced among w g (y w) (x w))
    (hf : ∀ mid gmid, RunsAs silenced among mid gmid (f' gmid mid) (f gmid mid)) :
    RunsAs silenced among w g ((y >>= f') w) ((x >>= f) w) := by
  cases hrun : x w with
  | error e mid =>
    rw [hrun] at hx
    rw [bind_of_error hrun]
    cases hx with
    | stopped hround hasked hcancelled hsame =>
      exact .stopped hround hasked hcancelled fun hunmarked => bind_of_error (hsame hunmarked)
  | ok gmid mid =>
    rw [hrun] at hx
    rw [bind_of_ok hrun]
    cases hx with
    | all hround hasked hsame =>
      have hrest := hf mid gmid
      cases hlast : f gmid mid with
      | ok g' w' =>
        rw [hlast] at hrest
        cases hrest with
        | all hround' hasked' hsame' =>
          refine .all (hround.append hround') (List.forall_mem_append.mpr ⟨hasked, hasked'⟩) ?_
          intro hunmarked
          obtain ⟨hfirst, hlater⟩ := hunmarked.of_append
          rw [← hround.gathering_eq] at hlater
          rw [bind_of_ok (hsame hfirst), hsame' hlater]
      | error e w' =>
        rw [hlast] at hrest
        cases hrest with
        | stopped hround' hasked' hcancelled hsame' =>
          refine .stopped (hround.append hround')
            (List.forall_mem_append.mpr ⟨hasked, hasked'⟩) hcancelled ?_
          intro hunmarked
          obtain ⟨hfirst, hlater⟩ := hunmarked.of_append
          rw [← hround.gathering_eq] at hlater
          rw [bind_of_ok (hsame hfirst), hsame' hlater]

/-- By induction on the list, of which the other run sees the images under `k`. -/
protected theorem foldlM {γ δ : Type} {k : γ → δ} (cs : List γ)
    (f : Gathering → γ → RefreshM σ Gathering) (f' : Gathering → δ → RefreshM σ Gathering)
    (h : ∀ c ∈ cs, ∀ w g, RunsAs silenced among w g (f' g (k c) w) (f g c w))
    (w : World σ) (g : Gathering) :
    RunsAs silenced among w g ((cs.map k).foldlM f' g w) (cs.foldlM f g w) := by
  induction cs generalizing w g with
  | nil => exact .pure
  | cons c rest ih =>
    obtain ⟨hc, hrest⟩ := List.forall_mem_cons.mp h
    rw [List.map_cons, List.foldlM_cons, List.foldlM_cons]
    exact .bind (hc w g) fun mid gmid => ih hrest mid gmid

end RunsAs

section Silenced

variable {answers : Answers σ} {silenced : MetadataProvider σ → Prop}
  {among : List (MetadataProvider σ)}

/-- A provider whose hollow result leaves no mark may as well answer with the empty one. -/
theorem MetadataProvider.consult_silenced (hanswers : answers.Silences silenced)
    (p : MetadataProvider σ) (g : Gathering) {w : World σ} (hactive : w.cancelled = false)
    (h : Unmarked silenced g [p.turn g.info w]) :
    (p.answering answers).consult g w = p.consult g w := by
  rw [p.consult_of_active g hactive, (p.answering answers).consult_of_active g hactive]
  have hfetch : (p.answering answers).fetch g.info w.surroundings =
    answers p g.info w.surroundings := rfl
  unfold afterTurn
  obtain hsame | ⟨hsilenced, r, houtcome, hhollow, hempty⟩ := hanswers p g.info w.surroundings
  · rw [hfetch, hsame]
    rfl
  · have hheard : g.hear (p.turn g.info w) = g := h [] _ [] r rfl hsilenced houtcome hhollow
    have htake : g.take p.source r = g := by
      unfold Gathering.hear turn at hheard
      rwa [houtcome] at hheard
    rw [hfetch, hempty, houtcome]
    dsimp only
    rw [htake]
    rfl

theorem MetadataProvider.consult_runsAs (hanswers : answers.Silences silenced)
    {p : MetadataProvider σ} (hp : p ∈ among) (w : World σ) (g : Gathering) :
    RunsAs silenced among w g ((p.answering answers).consult g w) (p.consult g w) := by
  cases hcancelled : w.cancelled with
  | true =>
    have hasked : ∀ t ∈ ([] : List (Turn σ)), t.provider ∈ among := by simp
    rw [p.consult_of_cancelled g hcancelled,
      (p.answering answers).consult_of_cancelled g hcancelled]
    exact .stopped (.done w g) hasked hcancelled fun _ => rfl
  | false =>
    have hround : Round w g [p.turn g.info w] (p.afterTurn g.info w)
        (g.hear (p.turn g.info w)) := .next p hcancelled (.done _ _)
    have hasked : ∀ t ∈ [p.turn g.info w], t.provider ∈ among := List.forall_mem_singleton.mpr hp
    have hsilenced := consult_silenced hanswers p g hcancelled
    obtain hheard | ⟨hstopped, hfired⟩ := p.consult_hear g hcancelled
    · rw [hheard] at hsilenced ⊢
      exact .all hround hasked hsilenced
    · rw [hstopped] at hsilenced ⊢
      exact .stopped hround hasked hfired hsilenced

theorem Gathering.consultSource_runsAs (hanswers : answers.Silences silenced)
    (options : RefreshOptions) (source : MetadataSource) (w : World σ) (g : Gathering) :
    RunsAs silenced among w g
      (g.consultSource (among.map (·.answering answers)) options source w)
      (g.consultSource among options source w) := by
  have hfilter : (among.map (·.answering answers)).filter (·.source == source) =
      (among.filter (·.source == source)).map (·.answering answers) := List.filter_map
  unfold consultSource
  rw [hfilter]
  split
  · have hall : ∀ p ∈ among.filter (·.source == source), ∀ w g,
        RunsAs silenced among w g ((p.answering answers).consult g w) (p.consult g w) :=
      fun p hp => MetadataProvider.consult_runsAs hanswers (List.mem_filter.mp hp).1
    exact .foldlM _ (fun g (p : MetadataProvider σ) => p.consult g)
      (fun g (p : MetadataProvider σ) => p.consult g) hall w g
  · exact .pure

/-- Unless a hollow result of a silenced provider leaves a mark, a gathering ends like the one
with the other answers. -/
theorem Manager.gatherMetadata_silenced (hanswers : answers.Silences silenced) (m : Manager σ)
    (item : Item) (options : RefreshOptions) (w : World σ) :
    ∃ turns w' g, Round w (m.gathering item options) turns w' g ∧
      (∀ t ∈ turns, t.provider ∈ m.selected w.state item) ∧
      (m.gatherMetadata item options w = .ok (g.item, g.update) w' ∨
        (m.gatherMetadata item options w = .error (.failed .cancelled) w' ∧
          w'.cancelled = true)) ∧
      (Unmarked silenced (m.gathering item options) turns →
        (m.answering answers).gatherMetadata item options w =
          m.gatherMetadata item options w) := by
  let gathered (providers : List (MetadataProvider σ)) : RefreshM σ Gathering :=
    MetadataSource.all.foldlM (Gathering.consultSource providers options)
      (m.gathering item options)
  have hruns : RunsAs silenced (m.selected w.state item) w (m.gathering item options)
      (gathered ((m.selected w.state item).map (·.answering answers)) w)
      (gathered (m.selected w.state item) w) :=
    .foldlM (k := id) MetadataSource.all (Gathering.consultSource (m.selected w.state item) options)
      (Gathering.consultSource ((m.selected w.state item).map (·.answering answers)) options)
      (fun source _ w g => g.consultSource_runsAs hanswers options source w) w
      (m.gathering item options)
  have hown : m.gatherMetadata item options w =
      (gathered (m.selected w.state item) >>= fun g => pure (g.item, g.update)) w := rfl
  have hother : (m.answering answers).gatherMetadata item options w =
      (gathered ((m.selected w.state item).map (·.answering answers)) >>=
        fun g => pure (g.item, g.update)) w := by
    rw [← m.selected_answering answers]
    rfl
  rw [hown, hother]
  cases hrun : gathered (m.selected w.state item) w with
  | ok g w' =>
    rw [hrun] at hruns
    rw [bind_of_ok hrun]
    cases hruns with
    | all hround hasked hsame =>
      exact ⟨_, w', g, hround, hasked, .inl rfl, fun hunmarked => bind_of_ok (hsame hunmarked)⟩
  | error e w' =>
    rw [hrun] at hruns
    rw [bind_of_error hrun]
    cases hruns with
    | stopped hround hasked hcancelled hsame =>
      exact ⟨_, w', _, hround, hasked, .inr ⟨rfl, hcancelled⟩,
        fun hunmarked => bind_of_error (hsame hunmarked)⟩

end Silenced

namespace Manager

/-- A result is hollow when it never changes an item.  Unless it is empty, it still counts as
the first to overwrite and as found locally, reports an import if it is local, and has its
keys looked up; of this there is nothing left to do exactly when it comes too late.  A refresh
in which all hollow results of some providers come too late is the same, in its calls, its
item and its updates, as when these providers answer with the empty result there. -/
theorem hollow_results_leave_marks {answers : Answers σ} {silenced : MetadataProvider σ → Prop}
    (hanswers : answers.Silences silenced) (m : Manager σ) (item : Item)
    (options : RefreshOptions) (w : World σ) :
    (∀ r : MetadataResult,
      r.Hollow ↔ ∀ overwrite item, r.applyTo overwrite item = (item, false)) ∧
    ∃ turns w' g, Round w (m.gathering item options) turns w' g ∧
      (∀ t ∈ turns, t.provider ∈ m.selected w.state item) ∧
      (m.gatherMetadata item options w = .ok (g.item, g.update) w' ∨
        (m.gatherMetadata item options w = .error (.failed .cancelled) w' ∧
          w'.cancelled = true)) ∧
      (∀ before t after r, turns = before ++ t :: after → t.answer = .ok r → r.Hollow →
        let now := before.foldl Gathering.hear (m.gathering item options)
        now.hear t = (if r = .empty then now else now.marked t.provider.source r) ∧
          (now.hear t = now ↔ r = .empty ∨ Late item options before t.provider.source r)) ∧
      ((∀ before t after r, turns = before ++ t :: after → silenced t.provider →
          t.answer = .ok r → r.Hollow →
            r = .empty ∨ Late item options before t.provider.source r) →
        (m.answering answers).gatherMetadata item options w =
          m.gatherMetadata item options w) := by
  obtain ⟨turns, w', g, hround, hselected, hrun, hsame⟩ :=
    gatherMetadata_silenced hanswers m item options w
  have hmark : ∀ before t after r, turns = before ++ t :: after → t.answer = .ok r →
      r.Hollow → ((before.foldl Gathering.hear (m.gathering item options)).hear t =
        before.foldl Gathering.hear (m.gathering item options) ↔
          r = .empty ∨ Late item options before t.provider.source r) := by
    rintro before t after r rfl hanswer hhollow
    obtain ⟨mid, gmid, hbefore, -⟩ := hround.at_turn
    rw [← hbefore.gathering_eq]
    exact hbefore.hear_hollow_eq_self_iff hanswer hhollow
  refine ⟨fun r => MetadataResult.hollow_iff, turns, w', g, hround, hselected, hrun, ?_, ?_⟩
  · intro before t after r hsplit hanswer hhollow
    exact ⟨Gathering.hear_of_hollow hanswer hhollow,
      hmark before t after r hsplit hanswer hhollow⟩
  · intro hlate
    apply hsame
    intro before t after r hsplit hsilenced hanswer hhollow
    exact (hmark before t after r hsplit hanswer hhollow).mpr
      (hlate before t after r hsplit hsilenced hanswer hhollow)

end Manager

/-! ## A blank label -/

namespace Rehearsal

/-- A provider that has only a name for an item, which is blank. -/
def labeller (source : MetadataSource) : MetadataProvider Stage where
  name := "Label"
  source := source
  order := 0
  handles := fun _ => true
  fetch := fun _ => answer (.ok { MetadataResult.empty with name := some " " }) false
  search := none

/-- A manager that asks the catalogue and the labeller. -/
def labelled (source : MetadataSource) : Manager Stage :=
  { twoProviders false with
    providers := { ProviderSet.empty with metadataProviders := [catalogue, labeller source] } }

theorem labelled_selected (source : MetadataSource) :
    (labelled source).selected Manager.emptyStage film = [catalogue, labeller source] := by
  refine MetadataProvider.select_of_ordered ?_ ?_
  · cases source <;> decide
  · cases source <;> decide

end Rehearsal

open Rehearsal

namespace Manager

/-- A blank name behind the catalogue changes nothing. -/
theorem late_label_unnoticed :
    (Answers.hush "Label" : Answers Stage).Silences (fun p => p.name = "Label") ∧
      ((labelled .remote).answering (.hush "Label")).gatherMetadata film .standard
          (.fresh emptyStage) =
        (labelled .remote).gatherMetadata film .standard (.fresh emptyStage) := by
  refine ⟨Answers.hush_silences "Label", ?_⟩
  obtain ⟨-, turns, w', g, hround, hselected, -, -, hsame⟩ := hollow_results_leave_marks
    (Answers.hush_silences "Label") (labelled .remote) film .standard (.fresh emptyStage)
  apply hsame
  rintro before t after r rfl hname hanswer -
  have hlabeller : t.provider = labeller .remote := by
    have hmem := hselected t (by simp)
    unfold World.fresh at hmem
    rw [labelled_selected] at hmem
    obtain hcatalogue | hlabeller := List.mem_pair.mp hmem
    · rw [hcatalogue] at hname
      exact absurd hname (by decide)
    · exact hlabeller
  obtain ⟨s, hfetched⟩ := hround.answer_eq t (by simp)
  rw [hanswer, hlabeller] at hfetched
  obtain rfl : r = _ := Except.ok.inj hfetched
  refine .inr ⟨?_, ?_, ?_⟩
  · intro hreplaces
    cases hreplaces
  · intro hdisk
    rw [hlabeller] at hdisk
    cases hdisk
  · intro e he
    cases he

/-- A result with nothing to use may keep other providers from being asked: a blank name that
is found locally hides what the catalogue has. -/
theorem blank_name_hides_catalogue :
    ¬ ∀ (m : Manager Stage) (item : Item) (options : RefreshOptions) (w w' : World Stage)
      (found : Item × Update) (answers : Answers Stage) (name : String),
      answers.Silences (fun p => p.name = name) →
        m.gatherMetadata item options w = .ok found w' →
        ∃ w'', (m.answering answers).gatherMetadata item options w = .ok found w'' := by
  intro h
  obtain ⟨w'', hfound⟩ := h (labelled .disk) film .standard (.fresh emptyStage) _ _
    (.hush "Label") "Label" (Answers.hush_silences "Label") (by
      rw [gatherMetadata_eq]
      unfold World.fresh
      rw [labelled_selected]
      rfl)
  rw [gatherMetadata_eq] at hfound
  unfold World.fresh at hfound
  rw [selected_answering, labelled_selected] at hfound
  injection hfound with hpair
  exact absurd (congrArg (fun found => found.2.downloaded) hpair) (by decide)

end Manager

end MediaRefresh
