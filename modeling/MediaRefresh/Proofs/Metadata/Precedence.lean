import MediaRefresh.Proofs.Metadata.CallOrder

/-!
# Metadata: which of several values a field gets

Along a round the item follows the results that were heard: only the first of them may
overwrite, and all others fill what is still missing.
-/

set_option autoImplicit false

namespace MediaRefresh

variable {σ : Type}

namespace Manager

/-- A refresh of metadata leaves in each field the first present value among the item's
own and those of the results, in the order of the calls; the first result goes before the
item if values are to be replaced and the item is not locked.  Where there is no present
value, the item's own one stays. -/
theorem fields_follow_precedence (m : Manager σ) (item : Item) (options : RefreshOptions)
    (w : World σ) :
    ∃ turns w' g, Round w (m.gathering item options) turns w' g ∧
      let results := turns.filterMap Turn.result?
      (m.gatherMetadata item options w = .ok (g.item, g.update) w' ∧
          turns.map Turn.provider =
            callOrder (m.selected w.state item) options (turns.any Turn.foundLocally) ∧
          ((∀ r ∈ results, r.externalIds.Unambiguous) →
            Follows (options.replaceMetadata && !item.locked) item results g.item ∧
            ∀ key, (∀ r ∈ results, r.externalIds.get key = none) →
              g.item.externalIds.entry? key = item.externalIds.entry? key)) ∨
        (m.gatherMetadata item options w = .error (.failed .cancelled) w' ∧
          w'.cancelled = true) := by
  have hend := m.gatherMetadata_end item options w
  cases hrun : m.gatherMetadata item options w with
  | error e w' =>
    rw [hrun] at hend
    cases hend with
    | stopped hround _ hcancelled => exact ⟨_, w', _, hround, .inr ⟨rfl, hcancelled⟩⟩
  | ok found w' =>
    rw [hrun] at hend
    cases hend with
    | gathered hround hasked =>
      refine ⟨_, w', _, hround, .inl ⟨rfl, hasked, fun hids => ?_⟩⟩
      rw [hround.item_eq]
      refine ⟨item.withResults_follows hids, fun key hnone => ?_⟩
      exact item.withResults_keeps_entry fun r hr => ⟨hids r hr, hnone r hr⟩

open Rehearsal in
/-- The reader comes first and may overwrite the name; the other provider fills in genres
and an id. -/
theorem film_follows_both :
    ∃ w' item' update, (twoProviders false).gatherMetadata film .full (.fresh emptyStage) =
        .ok (item', update) w' ∧
      Follows true film ([reader false, catalogue].filterMap fun p => resultIn? (known p))
        item' := by
  obtain ⟨turns, w', g, hround, ⟨hrun, hasked, hfields⟩ | ⟨hrun, hcancelled⟩⟩ :=
    fields_follow_precedence (twoProviders false) film .full (.fresh emptyStage)
  · have hproviders : turns.map Turn.provider = [reader false, catalogue] := by
      have hselected : (twoProviders false).selected (World.fresh emptyStage).state film =
          [reader false, catalogue] := twoProviders_selected false
      rw [hasked, hselected]
      cases turns.any Turn.foundLocally <;> rfl
    have hknown : ∀ t ∈ turns, t.answer = known t.provider := by
      intro t ht
      obtain ⟨s, hs⟩ := hround.answer_eq t ht
      rw [hs]
      exact twoProviders_known false _ (hproviders ▸ List.mem_map_of_mem ht) _ _
    have hresults : turns.filterMap Turn.result? =
        [reader false, catalogue].filterMap fun p => resultIn? (known p) := by
      rw [filterMap_result?_eq hknown, hproviders]
    have hids : ∀ r ∈ turns.filterMap Turn.result?, r.externalIds.Unambiguous := by
      rw [hresults]
      decide
    exact ⟨w', g.item, g.update, hrun, hresults ▸ (hfields hids).1⟩
  · have hactive : (World.after ((twoProviders false).gatherMetadata film .full
        (.fresh emptyStage))).cancelled = false := by
      rw [gatherMetadata_eq]
      unfold World.fresh
      rw [twoProviders_selected]
      rfl
    rw [hrun] at hactive
    exact absurd hcancelled (Bool.eq_false_iff.mp hactive)

end Manager

end MediaRefresh
