import MediaRefresh.Proofs.Metadata.Round
import MediaRefresh.Proofs.Refresh.Commit

/-!
# Metadata: which providers are asked, and in which order

Without a cancellation every selected provider is asked once, source by source; the remote
ones are left out when a local one had something and not everything is to be fetched.  A
cancellation cuts the sequence of calls short: the calls are the first ones of those that
the same providers get when they answer alike and nothing is cancelled.
-/

set_option autoImplicit false

namespace MediaRefresh

open RefreshM

variable {σ α β : Type}

/-! ## Actions that a cancellation cuts short -/

/-- `x` does what `y` does up to a cancellation: unless it is cancelled it ends as `y`
does, and otherwise its journal is the beginning of that of `y`. -/
structure Truncates (x y : RefreshM σ α) : Prop where
  active : ∀ w, w.cancelled = false →
    (x w = y w ∧ (World.after (x w)).cancelled = false) ∨
      ((World.after (x w)).cancelled = true ∧
        (World.after (x w)).journal <+: (World.after (y w)).journal)
  /-- once cancelled, it does nothing -/
  cancelled : ∀ w, w.cancelled = true →
    (World.after (x w)).cancelled = true ∧ (World.after (x w)).journal = w.journal
  grows : ∀ w, w.journal <+: (World.after (y w)).journal

theorem journal_prefix_bind {y : RefreshM σ α} {g : α → RefreshM σ β}
    (hg : ∀ a w, w.journal <+: (World.after (g a w)).journal) (w : World σ) :
    (World.after (y w)).journal <+: (World.after ((y >>= g) w)).journal := by
  cases hres : y w with
  | ok a mid => rw [bind_of_ok hres]; exact hg a mid
  | error e mid => rw [bind_of_error hres]; exact List.prefix_refl _

namespace Truncates

protected theorem pure (a : α) : Truncates (pure a : RefreshM σ α) (pure a) where
  active _ hactive := Or.inl ⟨rfl, hactive⟩
  cancelled _ hcancelled := ⟨hcancelled, rfl⟩
  grows _ := List.prefix_refl _

protected theorem get : Truncates (get : RefreshM σ (World σ)) get where
  active _ hactive := Or.inl ⟨rfl, hactive⟩
  cancelled _ hcancelled := ⟨hcancelled, rfl⟩
  grows _ := List.prefix_refl _

protected theorem bind {x y : RefreshM σ α} {f g : α → RefreshM σ β} (hx : Truncates x y)
    (hf : ∀ a, Truncates (f a) (g a)) : Truncates (x >>= f) (y >>= g) where
  active w hactive := by
    obtain ⟨hsame, hstill⟩ | ⟨hcut, hprefix⟩ := hx.active w hactive
    · cases hres : x w with
      | ok a mid =>
        rw [hres] at hstill
        rw [bind_of_ok hres, bind_of_ok (hsame.symm.trans hres)]
        exact (hf a).active mid hstill
      | error e mid =>
        rw [hres] at hstill
        rw [bind_of_error hres, bind_of_error (hsame.symm.trans hres)]
        exact Or.inl ⟨rfl, hstill⟩
    · have hlonger := journal_prefix_bind (y := y) (fun a => (hf a).grows) w
      cases hres : x w with
      | ok a mid =>
        rw [hres] at hcut hprefix
        rw [bind_of_ok hres]
        obtain ⟨hstill, hjournal⟩ := (hf a).cancelled mid hcut
        rw [hjournal]
        exact Or.inr ⟨hstill, hprefix.trans hlonger⟩
      | error e mid =>
        rw [hres] at hcut hprefix
        rw [bind_of_error hres]
        exact Or.inr ⟨hcut, hprefix.trans hlonger⟩
  cancelled w hcancelled := by
    obtain ⟨hstill, hjournal⟩ := hx.cancelled w hcancelled
    cases hres : x w with
    | ok a mid =>
      rw [hres] at hstill hjournal
      rw [bind_of_ok hres]
      obtain ⟨hstill', hjournal'⟩ := (hf a).cancelled mid hstill
      exact ⟨hstill', hjournal'.trans hjournal⟩
    | error e mid =>
      rw [hres] at hstill hjournal
      rw [bind_of_error hres]
      exact ⟨hstill, hjournal⟩
  grows w := (hx.grows w).trans (journal_prefix_bind (fun a => (hf a).grows) w)

/-- By induction on the list, of which the longer action sees the images under `k`. -/
protected theorem foldlM {γ δ : Type} {f : β → γ → RefreshM σ β} {g : β → δ → RefreshM σ β}
    {k : γ → δ} (h : ∀ b c, Truncates (f b c) (g b (k c))) (cs : List γ) (b : β) :
    Truncates (cs.foldlM f b) ((cs.map k).foldlM g b) := by
  induction cs generalizing b with
  | nil => exact .pure b
  | cons c rest ih => exact .bind (h b c) ih

end Truncates

/-! ## Other answers of the same providers -/

/-- How the providers answer, in place of their own way. -/
abbrev Answers (σ : Type) := MetadataProvider σ → LookupInfo → Reaction σ MetadataResult

/-- The answers are those of the providers themselves, as long as no cancellation fires. -/
def Answers.AgreeUntilCancelled (answers : Answers σ) : Prop :=
  ∀ p info s, (p.fetch info s).fires = false → answers p info s = p.fetch info s

/-- The provider with other answers. -/
def MetadataProvider.answering (p : MetadataProvider σ) (answers : Answers σ) :
    MetadataProvider σ := { p with fetch := answers p }

/-- The manager whose metadata providers have other answers. -/
def Manager.answering (m : Manager σ) (answers : Answers σ) : Manager σ :=
  { m with providers := { m.providers with
      metadataProviders := m.providers.metadataProviders.map (·.answering answers) } }

section Answering

variable {answers : Answers σ}

theorem MetadataProvider.after_consult (p : MetadataProvider σ) (g : Gathering) {w : World σ}
    (h : w.cancelled = false) : World.after (p.consult g w) = p.afterTurn g.info w := by
  obtain hheard | ⟨hstopped, -⟩ := p.consult_hear g h
  · rw [hheard]
    rfl
  · rw [hstopped]
    rfl

theorem MetadataProvider.consult_truncates (hanswers : answers.AgreeUntilCancelled)
    (g : Gathering) (p : MetadataProvider σ) :
    Truncates (p.consult g) ((p.answering answers).consult g) where
  active w hactive := by
    cases hfires : (p.fetch g.info w.surroundings).fires with
    | false =>
      have hsame : (p.answering answers).fetch g.info w.surroundings =
          p.fetch g.info w.surroundings := hanswers p g.info w.surroundings hfires
      refine Or.inl ⟨?_, ?_⟩
      · rw [p.consult_of_active g hactive, (p.answering answers).consult_of_active g hactive]
        unfold afterTurn
        rw [hsame]
        rfl
      · rw [p.after_consult g hactive]
        simp [afterTurn, hactive, hfires]
    | true =>
      refine Or.inr ?_
      rw [p.after_consult g hactive, (p.answering answers).after_consult g hactive]
      exact ⟨by simp [afterTurn, hfires], List.prefix_refl _⟩
  cancelled w hcancelled := by
    rw [p.consult_of_cancelled g hcancelled]
    exact ⟨hcancelled, rfl⟩
  grows w := by
    obtain ⟨new, hnew, -⟩ := ((p.answering answers).consult_gathers (I := fun _ => True) g).adds w
    exact ⟨new, hnew.symm⟩

theorem Gathering.consultSource_truncates (hanswers : answers.AgreeUntilCancelled)
    (providers : List (MetadataProvider σ)) (options : RefreshOptions) (g : Gathering)
    (source : MetadataSource) :
    Truncates (g.consultSource providers options source)
      (g.consultSource (providers.map (·.answering answers)) options source) := by
  have hfilter : (providers.map (·.answering answers)).filter (·.source == source) =
      (providers.filter (·.source == source)).map (·.answering answers) := List.filter_map
  unfold Gathering.consultSource
  rw [hfilter]
  split
  · exact .foldlM (MetadataProvider.consult_truncates hanswers) _ g
  · exact .pure g

/-- The providers that are selected are the same ones, with the other answers. -/
theorem Manager.selected_answering (m : Manager σ) (answers : Answers σ) (state : σ)
    (item : Item) : (m.answering answers).selected state item =
      (m.selected state item).map (·.answering answers) :=
  MetadataProvider.select_map (fun _ => rfl) (fun _ => rfl)

theorem Manager.gatherMetadata_truncates (hanswers : answers.AgreeUntilCancelled)
    (m : Manager σ) (item : Item) (options : RefreshOptions) :
    Truncates (m.gatherMetadata item options)
      ((m.answering answers).gatherMetadata item options) := by
  unfold gatherMetadata
  refine .bind .get fun w => .bind ?_ fun g => .pure _
  have hselected := m.selected_answering answers w.state item
  unfold selected at hselected
  rw [hselected]
  exact .foldlM (k := id) (Gathering.consultSource_truncates hanswers _ options) _ _

end Answering

/-! ## The calls of a refresh -/

/-- The answers of the providers themselves, none of which comes with a cancellation. -/
def Answers.uncut : Answers σ := fun p info s => { p.fetch info s with fires := false }

theorem Answers.uncut_agree : (uncut : Answers σ).AgreeUntilCancelled := by
  intro p info s hfires
  unfold uncut
  rw [← hfires]

namespace Manager

/-- The calls of a refresh of metadata are the turns of the selected providers, each once
and in order; the remote ones are left out when a local one had something, unless
everything is to be fetched.  Calls that a cancellation has cut short are the first ones
of those that come when the providers answer alike without one. -/
theorem asked_in_order (m : Manager σ) (item : Item) (options : RefreshOptions) (w : World σ) :
    (∃ turns w' g, Round w (m.gathering item options) turns w' g ∧
      w'.journal = w.journal ++ turns.map (fun t => .called t.call) ∧
      (let expected := callOrder (m.selected w.state item) options (turns.any Turn.foundLocally)
      (m.gatherMetadata item options w = .ok (g.item, g.update) w' ∧
          turns.map Turn.provider = expected) ∨
        (m.gatherMetadata item options w = .error (.failed .cancelled) w' ∧
          w'.cancelled = true ∧ turns.map Turn.provider <+: expected))) ∧
    ∀ answers : Answers σ, answers.AgreeUntilCancelled →
      (World.after (m.gatherMetadata item options w)).journal <+:
        (World.after ((m.answering answers).gatherMetadata item options
          { w with cancelled := false })).journal := by
  constructor
  · have hend := m.gatherMetadata_end item options w
    cases hrun : m.gatherMetadata item options w with
    | ok found w' =>
      rw [hrun] at hend
      cases hend with
      | gathered hround hasked => exact ⟨_, w', _, hround, hround.journal_eq, .inl ⟨rfl, hasked⟩⟩
    | error e w' =>
      rw [hrun] at hend
      cases hend with
      | stopped hround hasked hcancelled =>
        exact ⟨_, w', _, hround, hround.journal_eq, .inr ⟨rfl, hcancelled, hasked⟩⟩
  · intro answers hanswers
    have htruncates := m.gatherMetadata_truncates hanswers item options
    cases hcancelled : w.cancelled with
    | true =>
      rw [(htruncates.cancelled w hcancelled).2]
      exact htruncates.grows { w with cancelled := false }
    | false =>
      have hsame : { w with cancelled := false } = w := by rw [← hcancelled]
      rw [hsame]
      obtain ⟨hequal, -⟩ | ⟨-, hprefix⟩ := htruncates.active w hcancelled
      · exact hequal ▸ List.prefix_refl _
      · exact hprefix

end Manager

/-! ## Two providers -/

namespace Rehearsal

/-- A film on disk of which only the name is known. -/
def film : Item := (Item.bare .zero .movie "Alien").withPath "/films/Aliens"

/-- A reader that knows the name and the year, and may be cancelled while it answers. -/
def reader (cancels : Bool) : MetadataProvider Stage where
  name := "Nfo"
  source := .disk
  order := 0
  handles := fun _ => true
  fetch := fun _ => answer
    (.ok { MetadataResult.empty with name := some "Aliens", productionYear := some 1986 }) cancels
  search := none

/-- A remote provider that knows another name, the genres and an id. -/
def catalogue : MetadataProvider Stage where
  name := "Catalogue"
  source := .remote
  order := 0
  handles := fun _ => true
  fetch := fun _ => answer (.ok { MetadataResult.empty with
    name := some "Alien 2", genres := ["Action"], externalIds := .collect [("Imdb", "tt0090605")] })
    false
  search := none

/-- A manager with both on a stage, in a library that restricts nothing. -/
def twoProviders (cancels : Bool) : Manager Stage where
  config := .standard
  providers := { ProviderSet.empty with metadataProviders := [reader cancels, catalogue] }
  host := { Stage.host with libraryOptions := fun _ _ => .standard }

theorem twoProviders_selected (cancels : Bool) :
    (twoProviders cancels).selected Manager.emptyStage film = [reader cancels, catalogue] := by
  refine MetadataProvider.select_of_ordered ?_ ?_
  · cases cancels <;> decide
  · cases cancels <;> decide

/-- What a provider answers that does not look at what it is told. -/
def known (p : MetadataProvider Stage) : Except Failure MetadataResult :=
  (p.fetch default ⟨Manager.emptyStage, false⟩).outcome

theorem twoProviders_known (cancels : Bool) :
    ∀ p ∈ [reader cancels, catalogue], ∀ info s, (p.fetch info s).outcome = known p := by
  rw [List.forall_mem_cons, List.forall_mem_singleton]
  exact ⟨fun _ _ => rfl, fun _ _ => rfl⟩

end Rehearsal

open Rehearsal

/-- The reader is cancelled, and the other provider is not asked. -/
theorem Manager.cancelled_at_first :
    (World.after ((twoProviders true).gatherMetadata film .full (.fresh emptyStage))).journal =
        [.called (.fetch "Nfo" ((twoProviders true).lookup film .full))] ∧
      (Answers.uncut : Answers Stage).AgreeUntilCancelled ∧
      (World.after ((twoProviders true).gatherMetadata film .full (.fresh emptyStage))).journal <+:
        (World.after (((twoProviders true).answering .uncut).gatherMetadata film .full
          (.fresh emptyStage))).journal := by
  refine ⟨?_, Answers.uncut_agree, ?_⟩
  · rw [gatherMetadata_eq]
    unfold World.fresh
    rw [twoProviders_selected]
    rfl
  · exact (asked_in_order (twoProviders true) film .full (.fresh emptyStage)).2 .uncut
      Answers.uncut_agree

end MediaRefresh
