import MediaRefresh.Proofs.Refresh.Journal

/-!
# Refresh: two runs side by side

`Parallel` relates two actions that do the same up to calls of some kind: from worlds that
nobody can tell apart both end alike, and the journal of the second is that of the first
without such calls.  What nobody can tell apart is a `Likeness`.  The relation is kept by
every combinator from which refreshes are built.  It is about runs that are not cancelled:
the first action must not take a cancellation back, and nothing is said of a run that ends
in a world where one has fired.
-/

set_option autoImplicit false

namespace MediaRefresh

variable {σ α β : Type}

/-! ## Lists of which some elements are left out -/

/-- The second list is the first without some elements that are `gone`; the others are
`kept`. -/
inductive Thins (kept gone : α → Prop) : List α → List α → Prop where
  | nil : Thins kept gone [] []
  | keep {a : α} {l l' : List α} (here : kept a) (rest : Thins kept gone l l') :
      Thins kept gone (a :: l) (a :: l')
  | drop {a : α} {l l' : List α} (here : gone a) (rest : Thins kept gone l l') :
      Thins kept gone (a :: l) l'

namespace Thins

variable {kept gone : α → Prop} {kept' gone' : β → Prop} {l l' more more' : List α}

protected theorem refl (h : ∀ a ∈ l, kept a) : Thins kept gone l l := by
  induction l with
  | nil => exact .nil
  | cons a rest ih =>
    obtain ⟨ha, hrest⟩ := List.forall_mem_cons.mp h
    exact .keep ha (ih hrest)

protected theorem append (h : Thins kept gone l l') (hmore : Thins kept gone more more') :
    Thins kept gone (l ++ more) (l' ++ more') := by
  induction h with
  | nil => exact hmore
  | keep ha _ ih => exact .keep ha ih
  | drop ha _ ih => exact .drop ha ih

theorem of_filter {keep : α → Bool} (hkept : ∀ a ∈ l, keep a = true → kept a)
    (hgone : ∀ a ∈ l, keep a = false → gone a) : Thins kept gone l (l.filter keep) := by
  induction l with
  | nil => exact .nil
  | cons a rest ih =>
    obtain ⟨ha, hrest⟩ := List.forall_mem_cons.mp hkept
    obtain ⟨ha', hrest'⟩ := List.forall_mem_cons.mp hgone
    cases hkeep : keep a with
    | true =>
      rw [List.filter_cons_of_pos hkeep]
      exact .keep (ha hkeep) (ih hrest hrest')
    | false =>
      rw [List.filter_cons_of_neg (by simp [hkeep])]
      exact .drop (ha' hkeep) (ih hrest hrest')

protected theorem filterMap {f : α → Option β} (h : Thins kept gone l l')
    (hkept : ∀ a b, kept a → f a = some b → kept' b)
    (hgone : ∀ a b, gone a → f a = some b → gone' b) :
    Thins kept' gone' (l.filterMap f) (l'.filterMap f) := by
  induction h with
  | nil => exact .nil
  | @keep a _ _ ha _ ih =>
    cases hfound : f a with
    | none =>
      rw [List.filterMap_cons_none hfound, List.filterMap_cons_none hfound]
      exact ih
    | some b =>
      rw [List.filterMap_cons_some hfound, List.filterMap_cons_some hfound]
      exact .keep (hkept a b ha hfound) ih
  | @drop a _ _ ha _ ih =>
    cases hfound : f a with
    | none =>
      rw [List.filterMap_cons_none hfound]
      exact ih
    | some b =>
      rw [List.filterMap_cons_some hfound]
      exact .drop (hgone a b ha hfound) ih

protected theorem filter (h : Thins kept gone l l') (p : α → Bool) :
    Thins kept gone (l.filter p) (l'.filter p) := by
  rw [← List.filterMap_eq_filter]
  refine h.filterMap (fun a b ha hb => ?_) fun a b ha hb => ?_
  · exact (Option.guard_eq_some_iff.mp hb).1 ▸ ha
  · exact (Option.guard_eq_some_iff.mp hb).1 ▸ ha

end Thins

/-! ## What nobody can tell apart -/

/-- The item without the time of its refresh. -/
def Item.unstamped (item : Item) : Item := { item with lastRefreshed := none }

/-- The item with the time of its refresh. -/
def Item.stampedAt (item : Item) (t : Calendar.Instant) : Item :=
  { item with lastRefreshed := some t }

/-- What does not depend on the time of the refresh is the same of items that differ in no
more than that. -/
theorem Item.eq_of_unstamped {f : Item → α} {i j : Item}
    (hf : ∀ item, f item.unstamped = f item) (h : i.unstamped = j.unstamped) : f i = f j := by
  rw [← hf i, ← hf j, h]

/-- The line without the time of the refresh of an item that is persisted. -/
def Entry.unstamped : Entry → Entry
  | .called (.save saver item) => .called (.save saver item.unstamped)
  | .called (.updateItem item update) => .called (.updateItem item.unstamped update)
  | .persisted item update => .persisted item.unstamped update
  | e => e

/-- What those that take part in a refresh cannot tell apart. -/
structure Likeness (σ : Type) where
  /-- of the states of the outside -/
  states : σ → σ → Prop
  /-- of the items, which may differ in the time of their refresh -/
  items : Item → Item → Prop
  states_refl : ∀ x, states x x
  items_refl : ∀ i, items i i
  unstamped_eq : ∀ {i j}, items i j → i.unstamped = j.unstamped

namespace Likeness

variable (like : Likeness σ)

/-- Everything can be told apart. -/
def equality : Likeness σ where
  states := Eq
  items := Eq
  states_refl _ := rfl
  items_refl _ := rfl
  unstamped_eq h := congrArg Item.unstamped h

/-- Two calls that answer alike in like states and leave like states. -/
structure Alike (r r' : Reaction σ α) : Prop where
  outcome : ∀ {x y}, like.states x y → (r ⟨x, false⟩).outcome = (r' ⟨y, false⟩).outcome
  fires : ∀ {x y}, like.states x y → (r ⟨x, false⟩).fires = (r' ⟨y, false⟩).fires
  state : ∀ {x y}, like.states x y → like.states (r ⟨x, false⟩).state (r' ⟨y, false⟩).state

theorem Alike.equality_refl {r : Reaction σ α} : equality.Alike r r where
  outcome h := by cases h; rfl
  fires h := by cases h; rfl
  state h := by cases h; rfl

/-- A call whose effect on the outside nobody notices. -/
def Unnoticed (r : Reaction σ α) : Prop :=
  ∀ {x y}, like.states x y → like.states (r ⟨x, false⟩).state y

end Likeness

/-- A call that fails whenever it is made. -/
def Reaction.Fails (r : Reaction σ α) : Prop := ∀ s, ∃ f, (r s).outcome = .error f

/-- Two worlds that nobody can tell apart, and of whose journals the second misses some
lines. -/
structure World.Alike (like : Likeness σ) (gone : Entry → Prop) (w w' : World σ) : Prop where
  state : like.states w.state w'.state
  cancelled : w.cancelled = w'.cancelled
  tracker : w.tracker = w'.tracker
  journal : Thins (fun _ => True) gone (w.journal.map Entry.unstamped)
    (w'.journal.map Entry.unstamped)

theorem World.Alike.refl {like : Likeness σ} {gone : Entry → Prop} (w : World σ) :
    w.Alike like gone w :=
  ⟨like.states_refl w.state, rfl, rfl, .refl fun _ _ => trivial⟩

theorem World.surroundings_of_active {w : World σ} (h : w.cancelled = false) :
    w.surroundings = ⟨w.state, false⟩ := by rw [surroundings, h]

/-! ## Actions side by side -/

namespace RefreshM

/-- Both actions have returned related values, or stopped in the same way, in worlds that
nobody can tell apart. -/
inductive Ends (like : Likeness σ) (gone : Entry → Prop) (Q : α → α → Prop) :
    EStateM.Result Interrupt (World σ) α → EStateM.Result Interrupt (World σ) α → Prop where
  | ok {a b : α} {w w' : World σ} (value : Q a b) (worlds : w.Alike like gone w') :
      Ends like gone Q (.ok a w) (.ok b w')
  | error {e : Interrupt} {w w' : World σ} (worlds : w.Alike like gone w') :
      Ends like gone Q (.error e w) (.error e w')

/-- From like worlds both actions end alike, unless the first is cancelled. -/
structure Parallel (like : Likeness σ) (gone : Entry → Prop) (Q : α → α → Prop)
    (x y : RefreshM σ α) : Prop where
  stays : ∀ w, w.cancelled = true → (World.after (x w)).cancelled = true
  ends : ∀ {w w'}, w.Alike like gone w' → (World.after (x w)).cancelled = false →
    Ends like gone Q (x w) (y w')

namespace Parallel

variable {like : Likeness σ} {gone : Entry → Prop} {Q : α → α → Prop} {R : β → β → Prop}
  {x y : RefreshM σ α} {f g : α → RefreshM σ β} {w w' : World σ}

theorem active (h : Parallel like gone Q x y) (hafter : (World.after (x w)).cancelled = false) :
    w.cancelled = false := by
  refine Bool.eq_false_iff.mpr fun hcancelled => ?_
  rw [h.stays w hcancelled] at hafter
  cases hafter

protected theorem pure {a b : α} (h : Q a b) :
    Parallel like gone Q (pure a : RefreshM σ α) (pure b) where
  stays _ hcancelled := hcancelled
  ends hworlds _ := .ok h hworlds

protected theorem get :
    Parallel like gone (World.Alike like gone) (get : RefreshM σ (World σ)) get where
  stays _ hcancelled := hcancelled
  ends hworlds _ := .ok hworlds hworlds

protected theorem fail (e : RefreshError) :
    Parallel like gone Q (fail e : RefreshM σ α) (fail e) where
  stays _ hcancelled := hcancelled
  ends hworlds _ := .error hworlds

protected theorem bind (hx : Parallel like gone Q x y) (hrefl : ∀ a, Q a a)
    (hf : ∀ a b, Q a b → Parallel like gone R (f a) (g b)) :
    Parallel like gone R (x >>= f) (y >>= g) where
  stays w hcancelled := by
    have hstays := hx.stays w hcancelled
    cases hres : x w with
    | ok a mid =>
      rw [hres] at hstays
      rw [bind_of_ok hres]
      exact (hf a a (hrefl a)).stays mid hstays
    | error e mid =>
      rw [hres] at hstays
      rw [bind_of_error hres]
      exact hstays
  ends {w w'} hworlds hafter := by
    have hends := fun hmid => hx.ends hworlds hmid
    cases hres : x w with
    | ok a mid =>
      rw [bind_of_ok hres] at hafter ⊢
      rw [hres] at hends
      have hmid : mid.cancelled = false := (hf a a (hrefl a)).active hafter
      cases hres' : y w' with
      | ok b mid' =>
        rw [hres'] at hends
        rw [bind_of_ok hres']
        cases hends hmid with
        | ok hvalue hmids => exact (hf a b hvalue).ends hmids hafter
      | error e mid' =>
        rw [hres'] at hends
        cases hends hmid
    | error e mid =>
      rw [bind_of_error hres] at hafter ⊢
      rw [hres] at hends
      cases hres' : y w' with
      | ok b mid' =>
        rw [hres'] at hends
        cases hends hafter
      | error e' mid' =>
        rw [hres'] at hends
        rw [bind_of_error hres']
        cases hends hafter with
        | error hmids => exact .error hmids

/-- Actions that go on with the same value. -/
theorem bind_eq (hx : Parallel like gone Eq x y)
    (hf : ∀ a, Parallel like gone R (f a) (g a)) :
    Parallel like gone R (x >>= f) (y >>= g) := by
  refine .bind hx (fun _ => rfl) ?_
  rintro a _ rfl
  exact hf a

theorem bind_get {f g : World σ → RefreshM σ β}
    (hf : ∀ w w', w.Alike like gone w' → Parallel like gone R (f w) (g w')) :
    Parallel like gone R (get >>= f) (get >>= g) :=
  .bind .get World.Alike.refl hf

protected theorem checkCancelled :
    Parallel like gone Eq (checkCancelled : RefreshM σ Unit) checkCancelled where
  stays w hcancelled := by
    rw [checkCancelled_of_cancelled hcancelled]
    exact hcancelled
  ends {w w'} hworlds hafter := by
    cases hcancelled : w.cancelled with
    | true =>
      rw [checkCancelled_of_cancelled hcancelled,
        checkCancelled_of_cancelled (hworlds.cancelled.symm.trans hcancelled)]
      exact .error hworlds
    | false =>
      rw [checkCancelled_of_active hcancelled,
        checkCancelled_of_active (hworlds.cancelled.symm.trans hcancelled)]
      exact .ok rfl hworlds

/-- In a run that is not cancelled, a check that only the first action makes does nothing. -/
theorem checked (h : Parallel like gone Q x y) :
    Parallel like gone Q (checkCancelled >>= fun _ => x) y where
  stays w hcancelled := by
    rw [bind_of_error (checkCancelled_of_cancelled hcancelled)]
    exact hcancelled
  ends {w w'} hworlds hafter := by
    cases hcancelled : w.cancelled with
    | true =>
      rw [bind_of_error (checkCancelled_of_cancelled hcancelled)] at hafter
      exact absurd (hcancelled.symm.trans hafter) (by decide)
    | false =>
      rw [bind_of_ok (checkCancelled_of_active hcancelled)] at hafter ⊢
      exact h.ends hworlds hafter

protected theorem note {e e' : Entry} (h : e.unstamped = e'.unstamped) :
    Parallel like gone Eq (note e : RefreshM σ Unit) (note e') where
  stays _ hcancelled := hcancelled
  ends {w w'} hworlds _ := by
    refine .ok rfl ⟨hworlds.state, hworlds.cancelled, hworlds.tracker, ?_⟩
    have hline : Thins (fun _ => True) gone [e.unstamped] [e'.unstamped] :=
      h ▸ .refl fun _ _ => trivial
    simpa using hworlds.journal.append hline

/-- A call that both make. -/
protected theorem ask {c c' : Call} {r r' : Reaction σ α}
    (hcall : (Entry.called c).unstamped = (Entry.called c').unstamped)
    (hr : like.Alike r r') : Parallel like gone Eq (ask c r) (ask c' r') where
  stays w hcancelled := by
    rw [ask_apply]
    simp [World.after, hcancelled]
  ends {w w'} hworlds hafter := by
    rw [ask_apply] at hafter ⊢
    rw [ask_apply]
    have hactive : w.cancelled = false := (Bool.or_eq_false_iff.mp hafter).1
    rw [World.surroundings_of_active hactive,
      World.surroundings_of_active (hworlds.cancelled.symm.trans hactive),
      hr.outcome hworlds.state]
    refine .ok rfl ⟨hr.state hworlds.state, ?_, hworlds.tracker, ?_⟩
    · dsimp only
      rw [hworlds.cancelled, hr.fires hworlds.state]
    · have hline : Thins (fun _ => True) gone [(Entry.called c).unstamped]
          [(Entry.called c').unstamped] := hcall ▸ .refl fun _ _ => trivial
      simpa using hworlds.journal.append hline

/-- A call that only the first makes, and that fails. -/
theorem ask_left {c : Call} {r : Reaction σ α} {f : Except Failure α → RefreshM σ β}
    {y : RefreshM σ β} (hgone : gone (Entry.called c).unstamped) (hr : like.Unnoticed r)
    (hfails : r.Fails) (hf : ∀ failure, Parallel like gone R (f (.error failure)) y) :
    Parallel like gone R (ask c r >>= f) y where
  stays w hcancelled := by
    obtain ⟨failure, hfailure⟩ := hfails w.surroundings
    rw [bind_of_ok (ask_apply c r w), hfailure]
    exact (hf failure).stays _ (by simp [hcancelled])
  ends {w w'} hworlds hafter := by
    obtain ⟨failure, hfailure⟩ := hfails w.surroundings
    rw [bind_of_ok (ask_apply c r w), hfailure] at hafter ⊢
    have hstill := (hf failure).active hafter
    obtain ⟨hactive, hquiet⟩ := Bool.or_eq_false_iff.mp hstill
    rw [World.surroundings_of_active hactive] at hafter hquiet ⊢
    refine (hf failure).ends ⟨hr hworlds.state, ?_, hworlds.tracker, ?_⟩ hafter
    · dsimp only
      rw [hquiet, Bool.or_false]
      exact hworlds.cancelled
    · have hline : Thins (fun _ => True) gone [(Entry.called c).unstamped] [] :=
        .drop hgone .nil
      simpa using hworlds.journal.append hline

/-- By induction on the list: the steps of elements that are left out do nothing. -/
protected theorem foldlM {kept left : β → Prop} {f g : α → β → RefreshM σ α} {l l' : List β}
    (h : Thins kept left l l') (hkept : ∀ a b, kept b → Parallel like gone Eq (f a b) (g a b))
    (hleft : ∀ a b, left b → Parallel like gone Eq (f a b) (pure a)) (a : α) :
    Parallel like gone Eq (l.foldlM f a) (l'.foldlM g a) := by
  induction h generalizing a with
  | nil => exact .pure rfl
  | @keep b l l' hb _ ih =>
    rw [List.foldlM_cons, List.foldlM_cons]
    exact .bind_eq (hkept a b hb) ih
  | @drop b l l' hb _ ih =>
    have hskip : l'.foldlM g a = (pure a >>= fun a => l'.foldlM g a) := rfl
    rw [List.foldlM_cons, hskip]
    exact .bind_eq (hleft a b hb) ih

theorem foldlM_same {f g : α → β → RefreshM σ α}
    (hsteps : ∀ a b, Parallel like gone Eq (f a b) (g a b)) (l : List β) (a : α) :
    Parallel like gone Eq (l.foldlM f a) (l.foldlM g a) := by
  have hall : Thins (fun _ : β => True) (fun _ => False) l l := .refl fun _ _ => trivial
  exact .foldlM hall (fun a b _ => hsteps a b) (fun _ _ hnone => hnone.elim) a

protected theorem forM {kept left : β → Prop} {f g : β → RefreshM σ Unit} {l l' : List β}
    (h : Thins kept left l l') (hkept : ∀ b, kept b → Parallel like gone Eq (f b) (g b))
    (hleft : ∀ b, left b → Parallel like gone Eq (f b) (pure ())) :
    Parallel like gone Eq (l.forM f) (l'.forM g) := by
  induction h with
  | nil => exact .pure rfl
  | @keep b l l' hb _ ih => exact .bind_eq (hkept b hb) fun _ => ih
  | @drop b l l' hb _ ih =>
    have hskip : l'.forM g = ((pure () : RefreshM σ Unit) >>= fun _ => l'.forM g) := rfl
    rw [hskip]
    exact .bind_eq (hleft b hb) fun _ => ih

end Parallel

end RefreshM

end MediaRefresh
