import MediaRefresh.Refresh.Service

/-!
# Refresh: what an action adds to the journal

`RefreshM.Ensures P Q` says that an action only adds lines to the journal, all of which
satisfy `P`, that what it returns satisfies `Q`, and that it does not crash.  It is kept by
every combinator from which refreshes are built, so that it follows for an action along its
text.
-/

set_option autoImplicit false

namespace MediaRefresh

/-! ## Readings of a journal -/

/-- The item that a call shows to whom it asks. -/
def Call.item? : Call → Option Item
  | listImages _ item | generateImage _ item _ | saveImage item _ _ _ | save _ item
  | serve _ item _ | listFolders item | validateChildren item _ _ | updateItem item _ => some item
  | fetch .. | search .. | downloadImage .. | listItems _ => none

namespace Entry

/-- Whether a line is that of a call that gathers metadata or images. -/
def gathers : Entry → Bool
  | called (.fetch ..) => true
  | called (.listImages ..) => true
  | called (.generateImage ..) => true
  | called (.downloadImage ..) => true
  | called (.saveImage ..) => true
  | _ => false

/-- The item that a line shows. -/
def item? : Entry → Option Item
  | called c => c.item?
  | persisted item _ => some item
  | announced _ => none

/-- The item that was persisted, and the update that it was persisted with. -/
def persisted? : Entry → Option (Item × Update)
  | persisted item update => some (item, update)
  | _ => none

/-- The event that was announced. -/
def announced? : Entry → Option RefreshEvent
  | announced e => some e
  | _ => none

/-- The name of the saver that was called. -/
def saved? : Entry → Option String
  | called (.save saver _) => some saver
  | _ => none

end Entry

namespace RefreshM

variable {σ α β : Type} {P P' : Entry → Prop} {Q Q' : α → Prop} {R : β → Prop}
  {x : RefreshM σ α} {f : α → RefreshM σ β} {w w' : World σ}

/-! ## Running an action -/

theorem bind_of_ok {a : α} (h : x w = .ok a w') : (x >>= f) w = f a w' := by
  simp only [bind, EStateM.bind, h]

theorem bind_of_error {e : Interrupt} (h : x w = .error e w') : (x >>= f) w = .error e w' := by
  simp only [bind, EStateM.bind, h]

/-- Two actions that go on alike after what the first of them returns. -/
theorem bind_congr_of {x' : RefreshM σ α} {f' : α → RefreshM σ β} (hx : x w = x' w)
    (hf : ∀ a mid, x' w = .ok a mid → f a mid = f' a mid) : (x >>= f) w = (x' >>= f') w := by
  cases hres : x' w with
  | ok a mid => rw [bind_of_ok (hx.trans hres), bind_of_ok hres, hf a mid hres]
  | error e mid => rw [bind_of_error (hx.trans hres), bind_of_error hres]

theorem checkCancelled_apply (w : World σ) :
    checkCancelled w = if w.cancelled then .error (.failed .cancelled) w else .ok () w := by
  rcases w with ⟨state, _ | _, tracker, journal⟩
  · rfl
  · rfl

theorem checkCancelled_of_active (h : w.cancelled = false) : checkCancelled w = .ok () w := by
  rw [checkCancelled_apply, if_neg (by simp [h])]

theorem checkCancelled_of_cancelled (h : w.cancelled = true) :
    checkCancelled w = .error (.failed .cancelled) w := by
  rw [checkCancelled_apply, if_pos h]

theorem ask_apply (c : Call) (r : Reaction σ α) (w : World σ) :
    ask c r w = .ok (r w.surroundings).outcome
      { w with
        state := (r w.surroundings).state
        cancelled := w.cancelled || (r w.surroundings).fires
        journal := w.journal ++ [.called c] } := rfl

/-! ## Actions that add lines of one kind -/

/-- From any world, the action only adds lines that satisfy `P`, it returns what satisfies
`Q`, and it does not crash. -/
structure Ensures (P : Entry → Prop) (Q : α → Prop) (x : RefreshM σ α) : Prop where
  adds : ∀ w, ∃ new, (World.after (x w)).journal = w.journal ++ new ∧ ∀ e ∈ new, P e
  returns : ∀ w a w', x w = .ok a w' → Q a
  noCrash : ∀ w w', x w ≠ .error .crashed w'

/-- From any world, the action only adds lines that satisfy `P`, and it does not crash. -/
abbrev Writes (P : Entry → Prop) (x : RefreshM σ α) : Prop := Ensures P (fun _ => True) x

namespace Ensures

protected theorem pure {a : α} (h : Q a) : Ensures P Q (pure a : RefreshM σ α) where
  adds w := ⟨[], (List.append_nil _).symm, by simp⟩
  returns w b w' hres := by
    cases hres
    exact h
  noCrash w w' hres := by cases hres

protected theorem fail (e : RefreshError) : Ensures P Q (fail e : RefreshM σ α) where
  adds w := ⟨[], (List.append_nil _).symm, by simp⟩
  returns w b w' hres := by cases hres
  noCrash w w' hres := by cases hres

protected theorem get : Writes P (get : RefreshM σ (World σ)) where
  adds w := ⟨[], (List.append_nil _).symm, by simp⟩
  returns _ _ _ _ := trivial
  noCrash w w' hres := by cases hres

protected theorem bind (hx : Ensures P Q x) (hf : ∀ a, Q a → Ensures P R (f a)) :
    Ensures P R (x >>= f) where
  adds w := by
    obtain ⟨new, hnew, hall⟩ := hx.adds w
    cases hres : x w with
    | ok a mid =>
      obtain ⟨more, hmore, hall'⟩ := (hf a (hx.returns w a mid hres)).adds mid
      rw [hres] at hnew
      rw [bind_of_ok hres]
      refine ⟨new ++ more, ?_, fun e he => (List.mem_append.mp he).elim (hall e) (hall' e)⟩
      rw [hmore, ← List.append_assoc, ← hnew]
      rfl
    | error e mid =>
      rw [hres] at hnew
      rw [bind_of_error hres]
      exact ⟨new, hnew, hall⟩
  returns w b w' h := by
    cases hres : x w with
    | ok a mid =>
      rw [bind_of_ok hres] at h
      exact (hf a (hx.returns w a mid hres)).returns mid b w' h
    | error e mid =>
      rw [bind_of_error hres] at h
      cases h
  noCrash w w' h := by
    cases hres : x w with
    | ok a mid =>
      rw [bind_of_ok hres] at h
      exact (hf a (hx.returns w a mid hres)).noCrash mid w' h
    | error e mid =>
      rw [bind_of_error hres] at h
      cases h
      exact hx.noCrash w _ hres

protected theorem checkCancelled : Writes P (checkCancelled : RefreshM σ Unit) := by
  refine .bind (Q := fun _ => True) (.bind .get fun w _ => .pure trivial) fun cancelled _ => ?_
  split
  · exact .fail _
  · exact .pure trivial

protected theorem ask {c : Call} (h : P (.called c)) (r : Reaction σ α) :
    Writes P (ask c r) where
  adds w := ⟨[.called c], rfl, by simpa using h⟩
  returns _ _ _ _ := trivial
  noCrash w w' h := by cases h

protected theorem note {e : Entry} (h : P e) : Writes P (note e : RefreshM σ Unit) where
  adds w := ⟨[e], rfl, by simpa using h⟩
  returns _ _ _ _ := trivial
  noCrash w w' h := by cases h

/-- By induction on the list, of which `R` is the invariant. -/
protected theorem foldlM {f : β → α → RefreshM σ β} {l : List α}
    (hf : ∀ b, R b → ∀ a ∈ l, Ensures P R (f b a)) {b : β} (h : R b) :
    Ensures P R (l.foldlM f b) := by
  induction l generalizing b with
  | nil => exact .pure h
  | cons a rest ih =>
    refine .bind (hf b h a List.mem_cons_self) fun b' hb' => ih (fun c hc d hd => ?_) hb'
    exact hf c hc d (List.mem_cons_of_mem a hd)

protected theorem forM {f : α → RefreshM σ Unit} (hf : ∀ a, Writes P (f a)) (l : List α) :
    Writes P (l.forM f) := by
  induction l with
  | nil => exact .pure trivial
  | cons a rest ih => exact .bind (hf a) fun _ _ => ih

theorem mono (h : Ensures P Q x) (hlines : ∀ e, P e → P' e) (hvalues : ∀ a, Q a → Q' a) :
    Ensures P' Q' x where
  adds w := by
    obtain ⟨new, hnew, hall⟩ := h.adds w
    exact ⟨new, hnew, fun e he => hlines e (hall e he)⟩
  returns w a w' hres := hvalues a (h.returns w a w' hres)
  noCrash := h.noCrash

end Ensures

end RefreshM

end MediaRefresh
