import MediaRefresh.Proofs.Refresh.Sequence

/-!
# Refresh: what leaves the tracker alone

An action is `Untracked` when the tracker stays as it is and nothing is announced but changes
of items.  This is kept in sequence, so that it holds of all that the responsible service does.
-/

set_option autoImplicit false

namespace MediaRefresh

variable {σ α β : Type}

/-- Whether an event tells of refreshes, and not of what one has changed. -/
def RefreshEvent.tracks : RefreshEvent → Bool
  | updated .. => false
  | _ => true

/-- Whether a line announces an event that tells of refreshes. -/
def Entry.tracks : Entry → Bool
  | announced e => e.tracks
  | _ => false

/-- The tracker, and what has been announced of refreshes. -/
def World.watched (w : World σ) : Tracker × List Entry := (w.tracker, w.journal.filter Entry.tracks)

namespace RefreshM

/-- From any world the action leaves the tracker alone and announces nothing of refreshes. -/
def Untracked (x : RefreshM σ α) : Prop := ∀ w, (World.after (x w)).watched = w.watched

namespace Untracked

variable {x : RefreshM σ α} {f : α → RefreshM σ β}

protected theorem pure (a : α) : Untracked (pure a : RefreshM σ α) := fun _ => rfl

protected theorem fail (e : RefreshError) : Untracked (fail e : RefreshM σ α) := fun _ => rfl

protected theorem crash : Untracked (throw .crashed : RefreshM σ α) := fun _ => rfl

protected theorem get : Untracked (get : RefreshM σ (World σ)) := fun _ => rfl

protected theorem bind (hx : Untracked x) (hf : ∀ a, Untracked (f a)) : Untracked (x >>= f) := by
  intro w
  have hfirst := hx w
  cases hres : x w with
  | ok a mid =>
    rw [hres] at hfirst
    rw [bind_of_ok hres, hf a mid]
    exact hfirst
  | error e mid =>
    rw [hres] at hfirst
    rw [bind_of_error hres]
    exact hfirst

protected theorem note {e : Entry} (h : e.tracks = false) :
    Untracked (note e : RefreshM σ Unit) := by
  intro w
  have hlines : (w.journal ++ [e]).filter Entry.tracks = w.journal.filter Entry.tracks := by
    simp [h]
  exact congrArg (Prod.mk w.tracker) hlines

/-- The outside takes the world and gives it back. -/
theorem exchange {g : World σ → World σ} {k : World σ → RefreshM σ α}
    (hg : ∀ w, (g w).watched = w.watched) (hk : ∀ w, Untracked (k w)) :
    Untracked (do
      let w ← get
      set (g w)
      k w) := fun w => (hk w (g w)).trans (hg w)

protected theorem ask (c : Call) (r : Reaction σ α) : Untracked (ask c r) :=
  .bind (.note rfl) fun _ => .exchange (fun _ => rfl) fun _ => .pure _

protected theorem checkCancelled : Untracked (checkCancelled : RefreshM σ Unit) := by
  unfold RefreshM.checkCancelled
  apply Untracked.bind (.bind .get fun w => .pure _)
  intro cancelled
  split
  · exact .fail _
  · exact .pure _

protected theorem foldlM {f : β → α → RefreshM σ β} (hf : ∀ b a, Untracked (f b a)) (l : List α)
    (b : β) : Untracked (l.foldlM f b) := by
  induction l generalizing b with
  | nil => exact .pure b
  | cons a rest ih => exact .bind (hf b a) fun b' => ih b'

end Untracked

end RefreshM

open RefreshM

/-! ## Metadata -/

theorem MetadataProvider.consult_untracked (p : MetadataProvider σ) (g : Gathering) :
    Untracked (p.consult g) := by
  unfold MetadataProvider.consult
  apply Untracked.bind .checkCancelled
  intro _
  apply Untracked.bind (.ask _ _)
  intro answer
  cases answer with
  | ok r => exact .pure _
  | error f => exact .bind .checkCancelled fun _ => .pure _

theorem Gathering.consultSource_untracked (providers : List (MetadataProvider σ))
    (options : RefreshOptions) (g : Gathering) (source : MetadataSource) :
    Untracked (g.consultSource providers options source) := by
  unfold Gathering.consultSource
  split
  · exact .foldlM (fun g p => p.consult_untracked g) _ g
  · exact .pure g

theorem Manager.gatherMetadata_untracked (m : Manager σ) (item : Item) (options : RefreshOptions) :
    Untracked (m.gatherMetadata item options) := by
  unfold gatherMetadata
  apply Untracked.bind .get
  intro w
  refine .bind ?_ fun g => .pure _
  exact .foldlM (fun g source => g.consultSource_untracked _ options source) _ _

/-! ## The refresh of one item -/

theorem Entry.tracks_of_isPlain {e : Entry} (h : e.isPlain = true) : e.tracks = false := by
  cases e with
  | called c => rfl
  | persisted item update => rfl
  | announced event =>
    cases event with
    | updated id changes => rfl
    | _ => cases h

theorem RefreshM.untracked_sequences : Sequences fun _ (x : RefreshM σ _) => Untracked x where
  pure := .pure
  stop e := by
    cases e with
    | failed e => exact .fail e
    | crashed => exact .crash
  read := .get
  bind := .bind
  note hplain := .note (Entry.tracks_of_isPlain hplain)
  exchange htracker hjournal hk :=
    .exchange (fun w => by unfold World.watched; rw [htracker, hjournal]) hk

theorem Manager.refreshSingle_untracked (m : Manager σ) (item : Item) (options : RefreshOptions) :
    Untracked (m.refreshSingle item options) :=
  untracked_sequences.refreshSingle m item options (m.gatherMetadata_untracked item options)

end MediaRefresh
