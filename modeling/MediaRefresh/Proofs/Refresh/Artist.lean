import MediaRefresh.Proofs.Refresh.Validation
import Mathlib.Data.List.Nodup

/-!
# Refresh: an artist and its album groupings

The albums of an artist name the groupings that they are filed under, possibly many times.
Every live grouping is validated once, in the order in which they are first named, whatever the
others answer.  The artist itself comes last, unless there has been a cancellation by then.
-/

set_option autoImplicit false

namespace MediaRefresh

open Numeric RefreshM

variable {σ α : Type}

/-! ## First appearances -/

/-- One list is another without the elements that have appeared before. -/
structure FirstAppearances [DecidableEq α] (all firsts : List α) : Prop where
  same : ∀ a, a ∈ firsts ↔ a ∈ all
  distinct : firsts.Nodup
  ordered : firsts.Pairwise fun a b => all.idxOf a < all.idxOf b

section FirstAppearances

variable [DecidableEq α] {all firsts : List α} {a : α}

theorem FirstAppearances.append_of_mem (h : FirstAppearances all firsts) (ha : a ∈ all) :
    FirstAppearances (all ++ [a]) firsts where
  same b := by
    rw [h.same, List.mem_append, List.mem_singleton, or_iff_left_of_imp]
    rintro rfl
    exact ha
  distinct := h.distinct
  ordered := by
    refine h.ordered.imp_of_mem fun {b c} hb hc hlt => ?_
    rwa [List.idxOf_append_of_mem ((h.same b).mp hb), List.idxOf_append_of_mem ((h.same c).mp hc)]

theorem FirstAppearances.append_of_not_mem (h : FirstAppearances all firsts) (ha : a ∉ all) :
    FirstAppearances (all ++ [a]) (firsts ++ [a]) where
  same b := by rw [List.mem_append, List.mem_append, h.same]
  distinct := by
    have hnew : a ∉ firsts := fun hfirst => ha ((h.same a).mp hfirst)
    rw [← List.concat_eq_append]
    exact h.distinct.concat hnew
  ordered := by
    have hlast : (all ++ [a]).idxOf a = all.length := by
      rw [List.idxOf_append_of_notMem ha]
      simp
    have hbefore : ∀ b ∈ firsts, (all ++ [a]).idxOf b = all.idxOf b := fun b hb =>
      List.idxOf_append_of_mem ((h.same b).mp hb)
    refine List.pairwise_append.mpr ⟨?_, List.pairwise_singleton _ _, ?_⟩
    · refine h.ordered.imp_of_mem fun {b c} hb hc hlt => ?_
      rwa [hbefore b hb, hbefore c hc]
    · intro b hb c hc
      rw [List.mem_singleton.mp hc, hlast, hbefore b hb]
      exact List.idxOf_lt_length_of_mem ((h.same b).mp hb)

theorem firstAppearances_eraseDups (all : List α) : FirstAppearances all all.eraseDups := by
  induction all using List.reverseRecOn with
  | nil => exact ⟨fun a => Iff.rfl, List.nodup_nil, List.Pairwise.nil⟩
  | append_singleton all a ih =>
    rw [List.eraseDups_append]
    by_cases ha : a ∈ all
    · have hnothing : List.removeAll [a] all = [] := by simp [List.removeAll, ha]
      rw [hnothing, List.eraseDups_nil, List.append_nil]
      exact ih.append_of_mem ha
    · have hnew : List.removeAll [a] all = [a] := by simp [List.removeAll, ha]
      have hsingle : [a].eraseDups = [a] := by simp [List.eraseDups_cons]
      rw [hnew, hsingle]
      exact ih.append_of_not_mem ha

end FirstAppearances

namespace Manager

/-! ## The validations -/

/-- The line of the validation of a grouping. -/
def groupingLine (options : RefreshOptions) (grouping : Item) : Entry :=
  .called (.validateChildren grouping options true)

theorem silent_reports (reports : List Binary64) :
    reports.forM (fun _ => pure () : Binary64 → RefreshM σ Unit) = pure () := by
  induction reports with
  | nil => rfl
  | cons progress rest ih => exact ih

/-- The validation of a grouping reports no progress. -/
theorem validateGrouping_apply (m : Manager σ) (options : RefreshOptions) (grouping : Item)
    (w : World σ) :
    m.validateWith (fun _ => pure ()) grouping options true w =
      .ok (m.host.validateChildren grouping options true w.surroundings).outcome
        (m.answeredOn grouping options true w) := by
  rw [validateWith_apply, silent_reports]
  rfl

section Groupings

variable {m : Manager σ} {options : RefreshOptions} {grouping : Item} {rest : List Item}
  {w : World σ}

theorem validateGroupings_of_answer
    (h : (m.host.validateChildren grouping options true w.surroundings).outcome ≠ .crashed) :
    m.validateGroupings options (grouping :: rest) w =
      m.validateGroupings options rest (m.answeredOn grouping options true w) := by
  conv_lhs => unfold validateGroupings
  rw [bind_of_ok (m.validateGrouping_apply options grouping w)]
  cases houtcome : (m.host.validateChildren grouping options true w.surroundings).outcome with
  | done => rfl
  | failed f => rfl
  | crashed => exact absurd houtcome h

theorem validateGroupings_of_crash
    (h : (m.host.validateChildren grouping options true w.surroundings).outcome = .crashed) :
    m.validateGroupings options (grouping :: rest) w =
      .error .crashed (m.answeredOn grouping options true w) := by
  unfold validateGroupings
  rw [bind_of_ok (m.validateGrouping_apply options grouping w), h]
  rfl

/-- How the validations of groupings end: after all of them, or in the first that crashes. -/
inductive GroupingsEnd (m : Manager σ) (options : RefreshOptions) (w : World σ) :
    List Item → EStateM.Result Interrupt (World σ) Unit → Prop where
  | done {groupings : List Item} {mid : World σ}
      (journal : mid.journal = w.journal ++ groupings.map (groupingLine options))
      (tracker : mid.tracker = w.tracker) : GroupingsEnd m options w groupings (.ok () mid)
  | crashed (before behind : List Item) {grouping : Item} {mid : World σ}
      (passed : m.validateGroupings options before w = .ok () mid)
      (crashes : (m.host.validateChildren grouping options true mid.surroundings).outcome =
        .crashed)
      (journal : mid.journal = w.journal ++ before.map (groupingLine options))
      (tracker : mid.tracker = w.tracker) :
      GroupingsEnd m options w (before ++ grouping :: behind)
        (.error .crashed (m.answeredOn grouping options true mid))

theorem GroupingsEnd.cons {result : EStateM.Result Interrupt (World σ) Unit}
    (hanswer : (m.host.validateChildren grouping options true w.surroundings).outcome ≠ .crashed)
    (h : m.GroupingsEnd options (m.answeredOn grouping options true w) rest result) :
    m.GroupingsEnd options w (grouping :: rest) result := by
  cases h with
  | done journal tracker => exact .done (journal.trans (List.append_assoc _ _ _)) tracker
  | crashed before behind passed crashes journal tracker =>
    exact .crashed (grouping :: before) behind ((validateGroupings_of_answer hanswer).trans passed)
      crashes (journal.trans (List.append_assoc _ _ _)) tracker

theorem validateGroupings_end (m : Manager σ) (options : RefreshOptions) (groupings : List Item)
    (w : World σ) :
    m.GroupingsEnd options w groupings (m.validateGroupings options groupings w) := by
  induction groupings generalizing w with
  | nil => exact .done (List.append_nil _).symm rfl
  | cons grouping rest ih =>
    by_cases hcrash : (m.host.validateChildren grouping options true w.surroundings).outcome =
        .crashed
    · rw [validateGroupings_of_crash hcrash]
      exact .crashed [] rest rfl hcrash (List.append_nil _).symm rfl
    · rw [validateGroupings_of_answer hcrash]
      exact (ih _).cons hcrash

end Groupings

/-! ## The artist -/

/-- What the refresh of an artist comes to after its own metadata: an error of these is passed
over unless it is the cancellation. -/
def artistOutcome (artist : Item) :
    EStateM.Result Interrupt (World σ) Update → EStateM.Result Interrupt (World σ) Unit
  | .ok _ last => .ok () (completedOn artist last)
  | .error (.failed .cancelled) last => .error (.failed .cancelled) (completedOn artist last)
  | .error (.failed _) last => .ok () (completedOn artist last)
  | .error .crashed last => .error .crashed last

/-- The albums of an artist. -/
def albums (m : Manager σ) (artist : Item) (w : World σ) : List Item :=
  m.host.itemsMatching w.state (.albumsOf artist.id)

/-- The validations with which the refresh of an artist begins. -/
def prepareArtist (m : Manager σ) (artist : Item) (options : RefreshOptions) (w : World σ) :
    EStateM.Result Interrupt (World σ) Unit :=
  m.validateGroupings options (m.groupings w.state (m.albums artist w))
    (w.noting (.called (.listItems (.albumsOf artist.id))))

variable (m : Manager σ) (artist : Item) (options : RefreshOptions) {w mid : World σ}

theorem refreshArtist_apply (w : World σ) :
    m.refreshArtist artist options w = (do
      m.validateGroupings options (m.groupings w.state (m.albums artist w))
      checkCancelled
      match ← attempt (during artist (m.refreshSingle artist options)) with
      | .error .cancelled => fail .cancelled
      | _ => pure ()) (w.noting (.called (.listItems (.albumsOf artist.id)))) := rfl

theorem refreshArtist_of_crashed (h : m.prepareArtist artist options w = .error .crashed mid) :
    m.refreshArtist artist options w = .error .crashed mid := by
  have hprepared : m.validateGroupings options (m.groupings w.state (m.albums artist w))
      (w.noting (.called (.listItems (.albumsOf artist.id)))) = .error .crashed mid := h
  rw [refreshArtist_apply]
  exact bind_of_error hprepared

theorem prepareArtist_end (w : World σ) :
    m.GroupingsEnd options (w.noting (.called (.listItems (.albumsOf artist.id))))
      (m.groupings w.state (m.albums artist w)) (m.prepareArtist artist options w) :=
  m.validateGroupings_end options _ _

theorem refreshArtist_of_prepared (h : m.prepareArtist artist options w = .ok () mid) :
    m.refreshArtist artist options w =
      if mid.cancelled then .error (.failed .cancelled) mid
      else artistOutcome artist (m.refreshSingle artist options (startedOn artist mid)) := by
  have hprepared : m.validateGroupings options (m.groupings w.state (m.albums artist w))
      (w.noting (.called (.listItems (.albumsOf artist.id)))) = .ok () mid := h
  rw [refreshArtist_apply, bind_of_ok hprepared]
  cases hcancelled : mid.cancelled with
  | true => exact bind_of_error (checkCancelled_of_cancelled hcancelled)
  | false =>
    rw [bind_of_ok (checkCancelled_of_active hcancelled), if_neg Bool.false_ne_true]
    have hattempt := attempt_apply (during artist (m.refreshSingle artist options)) mid
    rw [during_apply] at hattempt
    cases hown : m.refreshSingle artist options (startedOn artist mid) with
    | ok update last =>
      rw [hown] at hattempt
      rw [bind_of_ok hattempt]
      rfl
    | error e last =>
      rw [hown] at hattempt
      cases e with
      | crashed => exact bind_of_error hattempt
      | failed e =>
        rw [bind_of_ok hattempt]
        cases e with
        | cancelled => rfl
        | _ => rfl

/-- The refresh of an artist validates every live grouping of its albums once, in the order in
which they are first named, unless one of these validations crashes.  If there has been a
cancellation by then that is all.  Otherwise the artist's own metadata is refreshed, which
validates nothing, and only a cancellation or a crash of this last step is not passed over. -/
theorem artist_after_groupings (m : Manager σ) (artist : Item) (options : RefreshOptions)
    (w : World σ) :
    ∃ ids, FirstAppearances ((m.albums artist w).filterMap Item.artistId) ids ∧
      ((∃ before grouping behind mid,
          ids.filterMap (m.host.item? w.state) = before ++ grouping :: behind ∧
          m.validateGroupings options before
            (w.noting (.called (.listItems (.albumsOf artist.id)))) = .ok () mid ∧
          mid.journal = w.journal ++ .called (.listItems (.albumsOf artist.id)) ::
            before.map (groupingLine options) ∧
          (m.host.validateChildren grouping options true mid.surroundings).outcome = .crashed ∧
          m.refreshArtist artist options w =
            .error .crashed (m.answeredOn grouping options true mid)) ∨
        ∃ mid own, m.prepareArtist artist options w = .ok () mid ∧
          mid.journal = w.journal ++ .called (.listItems (.albumsOf artist.id)) ::
            (ids.filterMap (m.host.item? w.state)).map (groupingLine options) ∧
          (m.refreshArtist artist options w =
            if mid.cancelled then .error (.failed .cancelled) mid
            else artistOutcome artist (m.refreshSingle artist options (startedOn artist mid))) ∧
          (World.after (m.refreshSingle artist options (startedOn artist mid))).journal =
            (startedOn artist mid).journal ++ own ∧
          told own = [] ∧ validations own = []) := by
  refine ⟨_, firstAppearances_eraseDups _, ?_⟩
  have hend := m.validateGroupings_end options (m.groupings w.state (m.albums artist w))
    (w.noting (.called (.listItems (.albumsOf artist.id))))
  generalize hprepared : m.validateGroupings options (m.groupings w.state (m.albums artist w))
    (w.noting (.called (.listItems (.albumsOf artist.id)))) = result at hend
  generalize hgroupings : m.groupings w.state (m.albums artist w) = groupings at hend
  cases hend with
  | @crashed before behind grouping mid passed crashes journal tracker =>
    exact Or.inl ⟨before, grouping, behind, mid, hgroupings, passed,
      journal.trans (List.append_assoc _ _ _), crashes,
      m.refreshArtist_of_crashed artist options hprepared⟩
  | @done _ mid journal tracker =>
    obtain ⟨own, hown, htold, hnone⟩ := m.refreshSingle_adds artist options (startedOn artist mid)
    refine Or.inr ⟨mid, own, hprepared, ?_, m.refreshArtist_of_prepared artist options hprepared,
      hown, htold, hnone⟩
    rw [journal, ← hgroupings]
    exact List.append_assoc _ _ _

end Manager

end MediaRefresh
