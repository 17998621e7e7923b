import MediaRefresh.Image.Listing
import MediaRefresh.Proofs.Image.Report
import MediaRefresh.Proofs.Numeric.Value
import MediaRefresh.Proofs.Order.StableSort

/-!
# Images: the automatic choice and the list to choose from

A gathering picks one candidate of a type by itself; a person is shown all of them, or those
whose language is no obstacle.  Both look at the candidates in one order, so that what is
picked is what is shown first.
-/

set_option autoImplicit false

namespace MediaRefresh

open Numeric

variable {σ : Type}

/-! ## The order of candidates -/

namespace RemoteImage

variable {preferred : String} {offered listed : List RemoteImage} {a b : RemoteImage}

/-- Whether a candidate is in the preferred language or in none. -/
def isFamiliar (preferred : String) (i : RemoteImage) : Bool :=
  i.language.all fun l => Text.same l preferred

/-- What the rating of a candidate counts. -/
def score (i : RemoteImage) : ℚ :=
  match i.communityRating with
  | some r => if r.isFinite then r.value else 0
  | none => 0

/-- Whether nothing but the order in which they are offered tells two candidates apart. -/
def ties (preferred : String) (a b : RemoteImage) : Bool :=
  a.languageRank preferred == b.languageRank preferred && a.rating == b.rating &&
    a.votes.getD 0 == b.votes.getD 0

theorem isFamiliar_iff (i : RemoteImage) :
    i.isFamiliar preferred = true ↔ i.languageRank preferred < 2 := by
  unfold isFamiliar languageRank
  cases i.language with
  | none => simp
  | some l => cases hsame : Text.same l preferred <;> simp [hsame]

theorem rating_value (i : RemoteImage) : i.rating.value = i.score := by
  have hzero : (Binary.zero : Binary64).value = 0 := by
    rw [Binary.value_eq_valueAt]
    exact Format.double.valueAt_natCast 0 ▸ Format.double.valueOf_zero
  unfold rating score
  cases i.communityRating with
  | none => exact hzero
  | some r =>
    rw [Option.filter_some]
    dsimp only
    split
    · rfl
    · exact hzero

theorem precedes_trans (a b c : RemoteImage) (hab : precedes preferred a b = true)
    (hbc : precedes preferred b c = true) : precedes preferred a c = true := by
  simp only [precedes, Bool.or_eq_true, Bool.and_eq_true, decide_eq_true_eq, beq_iff_eq]
    at hab hbc ⊢
  omega

theorem precedes_total (a b : RemoteImage) :
    (precedes preferred a b || precedes preferred b a) = true := by
  simp only [precedes, Bool.or_eq_true, Bool.and_eq_true, decide_eq_true_eq, beq_iff_eq]
  omega

theorem precedes_eq_false : precedes preferred b a = false ↔
    a.languageRank preferred < b.languageRank preferred ∨
      a.languageRank preferred = b.languageRank preferred ∧
        (b.rating.rank < a.rating.rank ∨
          a.rating = b.rating ∧ b.votes.getD 0 < a.votes.getD 0) := by
  rw [Bool.eq_false_iff, ← Binary.rank_inj]
  simp only [precedes, ne_eq, Bool.or_eq_true, Bool.and_eq_true, decide_eq_true_eq, beq_iff_eq]
  omega

/-- How candidates stand in the list of those that are offered. -/
structure Listed (preferred : String) (offered listed : List RemoteImage) : Prop where
  /-- each of them is there as often as it is offered -/
  complete : listed.Perm offered
  /-- those in the preferred language, then those in none, then the rest -/
  by_language : Ranked (fun a b => a.languageRank preferred < b.languageRank preferred) listed
  /-- then by their ratings -/
  by_rating : Ranked (fun a b => a.languageRank preferred = b.languageRank preferred ∧
    b.score < a.score) listed
  /-- where a negative zero comes after zero -/
  by_sign : Ranked (fun a b => a.languageRank preferred = b.languageRank preferred ∧
    a.score = b.score ∧ a.rating.negative = false ∧ b.rating.negative = true) listed
  /-- then by their votes -/
  by_votes : Ranked (fun a b => a.languageRank preferred = b.languageRank preferred ∧
    a.score = b.score ∧ a.rating.negative = b.rating.negative ∧
      b.votes.getD 0 < a.votes.getD 0) listed
  /-- and then as they are offered -/
  as_offered : ∀ c, listed.filter (ties preferred c) = offered.filter (ties preferred c)

theorem rating_eq_of_score (hscore : a.score = b.score)
    (hsign : a.rating.negative = b.rating.negative) : a.rating = b.rating := by
  rw [← rating_value, ← rating_value] at hscore
  exact Binary.eq_of_value_eq hscore hsign

theorem listed_ordered (preferred : String) (offered : List RemoteImage) :
    Listed preferred offered (ordered preferred offered) := by
  have hranked {before : RemoteImage → RemoteImage → Prop}
      (h : ∀ a b, before a b → precedes preferred b a = false) :
      Ranked before (ordered preferred offered) :=
    ranked_mergeSort precedes_trans precedes_total h offered
  refine ⟨List.mergeSort_perm _ _, hranked ?_, hranked ?_, hranked ?_, hranked ?_, fun c => ?_⟩
  · exact fun a b hlanguage => precedes_eq_false.mpr (Or.inl hlanguage)
  · rintro a b ⟨hlanguage, hscore⟩
    rw [← rating_value, ← rating_value] at hscore
    exact precedes_eq_false.mpr
      (Or.inr ⟨hlanguage, Or.inl (Binary.rank_lt_iff_value.mpr (Or.inl hscore))⟩)
  · rintro a b ⟨hlanguage, hscore, ha, hb⟩
    rw [← rating_value, ← rating_value] at hscore
    exact precedes_eq_false.mpr (Or.inr
      ⟨hlanguage, Or.inl (Binary.rank_lt_iff_value.mpr (Or.inr ⟨hscore.symm, hb, ha⟩))⟩)
  · rintro a b ⟨hlanguage, hscore, hsign, hvotes⟩
    exact precedes_eq_false.mpr
      (Or.inr ⟨hlanguage, Or.inr ⟨rating_eq_of_score hscore hsign, hvotes⟩⟩)
  · refine filter_mergeSort_of_tied precedes_trans precedes_total (fun a b ha hb => ?_) offered
    simp only [ties, Bool.and_eq_true, beq_iff_eq] at ha hb
    simp [precedes, ← ha.1.1, ← ha.1.2, ← ha.2, ← hb.1.1, ← hb.1.2, ← hb.2]

/-- If one candidate is familiar, so is the first. -/
theorem Listed.head?_familiar (h : Listed preferred offered listed)
    (hsome : listed.filter (isFamiliar preferred) ≠ []) :
    (listed.filter (isFamiliar preferred)).head? = listed.head? := by
  obtain ⟨i, hi⟩ := List.exists_mem_of_ne_nil _ hsome
  obtain ⟨hin, hfamiliar⟩ := List.mem_filter.mp hi
  obtain ⟨n, hn⟩ := List.getElem?_of_mem hin
  cases listed with
  | nil => cases hin
  | cons first rest =>
    have hfirst : isFamiliar preferred first = true := by
      by_contra hstrange
      rw [isFamiliar_iff] at hfamiliar hstrange
      exact Nat.not_lt_zero n (h.by_language n 0 i first hn rfl (by omega))
    rw [List.filter_cons_of_pos hfirst]
    rfl

end RemoteImage

/-! ## One provider's candidates -/

namespace Manager

variable {m : Manager σ} {item : Item} {name : Option String} {t : ImageType} {w w' : World σ}
  {p : ImageProvider σ} {candidates : List RemoteImage}

theorem listEach_of_single (hoffered : p.listCandidates item w = .ok (.ok candidates) w') :
    listEach item [p] w = .ok candidates w' := by
  unfold listEach
  rw [RefreshM.bind_of_ok hoffered]
  exact congrArg (EStateM.Result.ok · w') (List.append_nil candidates)

theorem availableImages_of_single
    (honly : (m.remoteImageProviders w.state item).filter
      (fun q => name.all fun n => Text.same q.name n) = [p])
    (hsupports : t ∈ p.types item) (hactive : w.cancelled = false)
    (hoffered : p.listCandidates item w = .ok (.ok candidates) w') (all : Bool) :
    m.availableImages item ⟨name, some t, all⟩ w =
      .ok (RemoteImage.ordered (m.language item) (candidates.filter
        (RemoteImageQuery.admits ⟨name, some t, all⟩ (m.language item)))) w' := by
  have hget : (get : RefreshM σ (World σ)) w = .ok w w := rfl
  have hasked : [p].filter (fun q => (some t).all fun t => (q.types item).contains t) = [p] :=
    List.filter_cons_of_pos (List.contains_iff_mem.mpr hsupports)
  unfold availableImages
  rw [RefreshM.bind_of_ok hget]
  dsimp only
  rw [RefreshM.bind_of_ok (RefreshM.checkCancelled_of_active hactive), honly, hasked,
    RefreshM.bind_of_ok (listEach_of_single hoffered)]
  rfl

/-- What is picked of the candidates of the only remote provider that is selected, or of the
one that is asked for by name, is what a person is shown first who asks for the type in all
languages.  The list has all candidates of the type in order.  Without the other languages it
is what remains of that list, and begins with the same candidate if anything remains. -/
theorem choice_shown_first (m : Manager σ) (item : Item) (name : Option String) (t : ImageType)
    (p : ImageProvider σ) (candidates : List RemoteImage) (w w' : World σ)
    (honly : (m.remoteImageProviders w.state item).filter
      (fun q => name.all fun n => Text.same q.name n) = [p])
    (hsupports : t ∈ p.types item) (hactive : w.cancelled = false)
    (hoffered : p.listCandidates item w = .ok (.ok candidates) w') :
    ∃ listed familiar, m.availableImages item ⟨name, some t, true⟩ w = .ok listed w' ∧
      m.availableImages item ⟨name, some t, false⟩ w = .ok familiar w' ∧
      RemoteImage.best? (m.language item) t candidates = listed.head? ∧
      RemoteImage.Listed (m.language item) (candidates.filter (·.imageType == t)) listed ∧
      familiar = listed.filter (RemoteImage.isFamiliar (m.language item)) ∧
      (familiar ≠ [] →
        familiar.head? = RemoteImage.best? (m.language item) t candidates) := by
  have hall : candidates.filter (RemoteImageQuery.admits ⟨name, some t, true⟩ (m.language item)) =
      candidates.filter (·.imageType == t) :=
    List.filter_congr fun i _ => by simp [RemoteImageQuery.admits, eq_comm]
  have hsome : candidates.filter
        (RemoteImageQuery.admits ⟨name, some t, false⟩ (m.language item)) =
      (candidates.filter (·.imageType == t)).filter
        (RemoteImage.isFamiliar (m.language item)) := by
    rw [List.filter_filter]
    refine List.filter_congr fun i _ => ?_
    simp [RemoteImageQuery.admits, RemoteImage.isFamiliar, Bool.and_comm, BEq.comm]
  have hlisted := RemoteImage.listed_ordered (m.language item)
    (candidates.filter (·.imageType == t))
  have hshown := availableImages_of_single honly hsupports hactive hoffered
  refine ⟨_, _, hall ▸ hshown true, ?_, rfl, hlisted, rfl, hlisted.head?_familiar⟩
  rw [hshown false, hsome]
  exact congrArg (EStateM.Result.ok · w')
    (filter_mergeSort_comm RemoteImage.precedes_trans RemoteImage.precedes_total _ _).symm

end Manager

/-! ## Two posters on offer -/

namespace Rehearsal

/-- A poster without a rating. -/
def unrated : RemoteImage :=
  ⟨"Gallery", "/unrated.jpg", none, .primary, none, none, none, none, none⟩

/-- A poster that ten votes rate at negative zero. -/
def voted : RemoteImage :=
  { unrated with
    url := "/voted.jpg"
    communityRating := some (.ofMagnitude true 0)
    votes := some 10 }

/-- A remote provider that offers both posters. -/
def gallery : ImageProvider Stage :=
  { frames [] with
    name := "Gallery"
    source := .remote
    candidates := some fun _ => answer (.ok [unrated, voted]) false }

theorem gallery_selected : (pictures [gallery]).remoteImageProviders
    (World.fresh Manager.emptyStage).state film = [gallery] := by
  have hselected : (pictures [gallery]).imageProviders (World.fresh Manager.emptyStage).state film
      .full true = [gallery] := by
    refine ImageProvider.select_of_ordered (fun p hp => ?_) (List.pairwise_singleton _ _)
    obtain rfl := List.mem_singleton.mp hp
    rfl
  unfold Manager.remoteImageProviders
  rw [hselected]
  rfl

theorem posters_ordered (preferred : String) :
    RemoteImage.ordered preferred [unrated, voted] = [unrated, voted] :=
  List.mergeSort_of_pairwise (List.pairwise_pair.mpr rfl)

theorem gallery_shown :
    ∃ w', gallery.listCandidates film (.fresh Manager.emptyStage) =
        .ok (.ok [unrated, voted]) w' ∧
      (pictures [gallery]).availableImages film ⟨none, some .primary, true⟩
        (.fresh Manager.emptyStage) = .ok [unrated, voted] w' := by
  have hsupports : .primary ∈ gallery.types film := by decide
  refine ⟨_, rfl, (Manager.availableImages_of_single ?_ hsupports rfl rfl true).trans ?_⟩
  · rw [gallery_selected]
    rfl
  · exact congrArg (EStateM.Result.ok · _) (posters_ordered _)

end Rehearsal

open Rehearsal

namespace Manager

/-- What is picked in the gallery is what is shown first. -/
theorem gallery_choice :
    ∃ listed w', (pictures [gallery]).availableImages film ⟨none, some .primary, true⟩
        (.fresh emptyStage) = .ok listed w' ∧
      RemoteImage.best? "en" .primary [unrated, voted] = listed.head? := by
  obtain ⟨listed, -, hlisted, -, hbest, -⟩ := choice_shown_first (pictures [gallery]) film none
    .primary gallery [unrated, voted] (.fresh emptyStage) _
    (by rw [gallery_selected]; rfl) (by decide) rfl rfl
  exact ⟨listed, _, hlisted, hbest⟩

/-- The poster with the votes comes behind the one that has no rating, which is as good. -/
theorem votes_behind_unrated :
    ¬ ∀ (m : Manager Stage) (item : Item) (t : ImageType) (p : ImageProvider Stage)
      (candidates listed : List RemoteImage) (w w' : World Stage),
      m.remoteImageProviders w.state item = [p] → t ∈ p.types item → w.cancelled = false →
      p.listCandidates item w = .ok (.ok candidates) w' →
      m.availableImages item ⟨none, some t, true⟩ w = .ok listed w' →
      Ranked (fun a b => a.languageRank (m.language item) = b.languageRank (m.language item) ∧
        a.score = b.score ∧ b.votes.getD 0 < a.votes.getD 0) listed := by
  intro h
  obtain ⟨w', hoffered, hshown⟩ := gallery_shown
  have hranked := h _ _ _ _ _ _ _ w' gallery_selected (by decide) rfl hoffered hshown
  have hkey : voted.rating.key = unrated.rating.key := by decide
  have hscore : voted.score = unrated.score := by
    rw [← RemoteImage.rating_value, ← RemoteImage.rating_value, Binary.value_eq_valueAt,
      Binary.value_eq_valueAt, hkey]
  exact absurd (hranked 1 0 voted unrated rfl rfl ⟨rfl, hscore, by decide⟩) (by decide)

end Manager

end MediaRefresh
