import MediaRefresh.Proofs.Item.ExternalIds

/-!
# External ids: which shared ids two bags see

A bag is asked for each entry of the other one, and it answers with its first entry under the
key.  So an id that both hold is seen only where it stands in the first entry of the bag that
is asked, and it may be seen from one side alone.  Where the bag that is asked has one spelling
of each key, everything shared is seen, and with two such bags the side makes no difference.
-/

set_option autoImplicit false

namespace MediaRefresh.ExternalIds

variable {a b : ExternalIds} {e f : String × String}

/-- Two entries have the same key and the same id, which is not empty, in any case. -/
def Agree (e f : String × String) : Prop :=
  Text.same e.1 f.1 = true ∧ e.2 ≠ "" ∧ Text.same e.2 f.2 = true

instance (e f : String × String) : Decidable (Agree e f) :=
  inferInstanceAs (Decidable (_ ∧ _ ∧ _))

theorem Agree.symm (h : Agree e f) : Agree f e := by
  obtain ⟨hkey, hid, hsame⟩ := h
  refine ⟨?_, Text.ne_empty_of_same hsame hid, ?_⟩
  · rw [Text.same_comm, hkey]
  · rw [Text.same_comm, hsame]

/-- The bag that is asked sees the entries of the other that agree with one that is the first
under its own key. -/
theorem sharesAny_iff_first_agrees : a.sharesAny b = true ↔
    ∃ e ∈ a.entries, ∃ f ∈ b.entries, Agree e f ∧ a.entry? e.1 = some e := by
  rw [sharesAny_iff]
  constructor
  · rintro ⟨f, hf, id, hget, hsame⟩
    obtain ⟨e, hentry, rfl, hid⟩ := get_eq_some_iff.mp hget
    obtain ⟨he, hkey⟩ := mem_and_same_of_entry?_eq hentry
    refine ⟨e, he, f, hf, ⟨hkey, hid, hsame⟩, ?_⟩
    rw [a.entry?_congr hkey, hentry]
  · rintro ⟨e, -, f, hf, ⟨hkey, hid, hsame⟩, hfirst⟩
    refine ⟨f, hf, e.2, get_eq_some_iff.mpr ⟨e, ?_, rfl, hid⟩, hsame⟩
    rw [← a.entry?_congr hkey, hfirst]

theorem Unambiguous.sharesAny_iff (h : a.Unambiguous) :
    a.sharesAny b = true ↔ ∃ e ∈ a.entries, ∃ f ∈ b.entries, Agree e f := by
  rw [sharesAny_iff_first_agrees]
  refine exists_congr fun e => and_congr_right fun he => exists_congr fun f =>
    and_congr_right fun _ => and_iff_left (h.entry?_of_mem he)

/-- Of the pairs of entries that agree each bag, when it is asked, sees those in which its own
entry is the first under the key.  These are all of them if it has one spelling of each key,
whatever the other has, and if both have, it does not matter which one is asked. -/
theorem first_spellings_share (a b : ExternalIds) :
    (a.sharesAny b = true ↔
        ∃ e ∈ a.entries, ∃ f ∈ b.entries, Agree e f ∧ a.entry? e.1 = some e) ∧
      (b.sharesAny a = true ↔
        ∃ e ∈ a.entries, ∃ f ∈ b.entries, Agree e f ∧ b.entry? f.1 = some f) ∧
      (a.Unambiguous →
        (a.sharesAny b = true ↔ ∃ e ∈ a.entries, ∃ f ∈ b.entries, Agree e f)) ∧
      (a.Unambiguous → b.Unambiguous → a.sharesAny b = b.sharesAny a) := by
  refine ⟨sharesAny_iff_first_agrees, ?_, fun ha => ha.sharesAny_iff, fun ha hb => ?_⟩
  · rw [sharesAny_iff_first_agrees]
    constructor
    · rintro ⟨f, hf, e, he, hagree, hfirst⟩
      exact ⟨e, he, f, hf, hagree.symm, hfirst⟩
    · rintro ⟨e, he, f, hf, hagree, hfirst⟩
      exact ⟨f, hf, e, he, hagree.symm, hfirst⟩
  · rw [Bool.eq_iff_iff, ha.sharesAny_iff, hb.sharesAny_iff]
    constructor
    · rintro ⟨e, he, f, hf, hagree⟩
      exact ⟨f, hf, e, he, hagree.symm⟩
    · rintro ⟨f, hf, e, he, hagree⟩
      exact ⟨e, he, f, hf, hagree.symm⟩

theorem collected_ids_shared :
    let a := collect [("Imdb", "TT2"), ("tmdb", "")]
    let b := collect [("imdb", "tt2"), ("Tmdb", "")]
    a.Unambiguous ∧ b.Unambiguous ∧ a.sharesAny b = true ∧ b.sharesAny a = true := by
  intro a b
  have ha : a.Unambiguous := by decide
  have hb : b.Unambiguous := by decide
  obtain ⟨-, -, hseen, hsymm⟩ := first_spellings_share a b
  have hshared : a.sharesAny b = true :=
    (hseen ha).mpr ⟨("Imdb", "TT2"), by decide, ("imdb", "tt2"), by decide, by decide⟩
  exact ⟨ha, hb, hshared, (hsymm ha hb).symm.trans hshared⟩

/-- A bag with two spellings of a key, as a document may have them. -/
def respelled : ExternalIds := ofEntries [("IMDB", "tt1"), ("imdb", "tt2")]

/-- Both bags hold an id, and only one of them sees it. -/
theorem shared_id_seen_from_one_side :
    ¬ ∀ a b : ExternalIds, a.sharesAny b = b.sharesAny a ∧
      (a.sharesAny b = true ↔ ∃ e ∈ a.entries, ∃ f ∈ b.entries, Agree e f) := by
  intro h
  have hunseen : respelled.sharesAny (collect [("Imdb", "tt2")]) = false := by decide
  have hseen : (collect [("Imdb", "tt2")]).sharesAny respelled = true := by decide
  have hsame := (h respelled (collect [("Imdb", "tt2")])).1
  rw [hunseen, hseen] at hsame
  cases hsame

end MediaRefresh.ExternalIds
