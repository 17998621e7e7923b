import MediaRefresh.Proofs.Refresh.Untracked
import MediaRefresh.Refresh.Tree

/-!
# Refresh: what calls are composed of

A call of a manager is composed of actions that leave the tracker alone, of exchanges with the
outside, of reports of progress and of refreshes from their start to their completion.  What
all these ways of composing keep, and what is true of the refresh of a single item, is true of
every call.
-/

set_option autoImplicit false

namespace MediaRefresh

open Numeric

variable {σ : Type}

/-- A call that refreshes items. -/
inductive RefreshCall where
  /-- an item, at once -/
  | refresh (item : Item) (options : RefreshOptions)
  /-- the live item of an identifier, at once and in full -/
  | refreshInFull (id : ItemId)
  /-- an item whose turn in the queue has come -/
  | refreshQueued (item : Item) (options : RefreshOptions)

/-- What a manager does when it is called. -/
def Manager.carryOut (m : Manager σ) : RefreshCall → RefreshM σ Unit
  | .refresh item options => m.refreshItem item options
  | .refreshInFull id => m.refreshInFull id
  | .refreshQueued item options => m.refreshQueued item options

namespace RefreshM

/-- A property of actions that is kept by every way of composing the calls of a manager, and
holds of the refreshes of single items. -/
structure Assembles (m : Manager σ) (P : (α : Type) → RefreshM σ α → Prop) : Prop
    extends Sequences P where
  single (item : Item) (options : RefreshOptions) : P Update (m.refreshSingle item options)
  attempt {α : Type} {x : RefreshM σ α} (hx : P α x) : P (Except RefreshError α) (attempt x)
  reportLeniently (item : Item) (progress : Binary64) : P Unit (reportLeniently item progress)
  during {α : Type} {x : RefreshM σ α} (hx : P α x) (item : Item) : P α (during item x)

namespace Assembles

variable {m : Manager σ} {P : (α : Type) → RefreshM σ α → Prop} (h : Assembles m P)
  (item : Item) (options : RefreshOptions)

include h

/-! ## Validations -/

theorem validateWith {onReport : Binary64 → RefreshM σ Unit}
    (hreport : ∀ progress, P Unit (onReport progress)) (folder : Item) (recursively : Bool) :
    P ValidationOutcome (m.validateWith onReport folder options recursively) := by
  unfold Manager.validateWith
  apply h.bind (h.note rfl)
  intro _
  refine h.exchange (fun _ => rfl) (fun _ => rfl) fun w => ?_
  exact h.bind (h.forM hreport _) fun _ => h.pure _

theorem validate (folder : Item) (recursively : Bool) :
    P Unit (m.validate folder options recursively) := by
  unfold Manager.validate
  apply h.bind (h.validateWith options (h.reportLeniently folder) folder recursively)
  intro outcome
  cases outcome with
  | done => exact h.pure ()
  | failed f => exact h.bind h.checkCancelled fun _ => h.stop _
  | crashed => exact h.stop _

theorem validateGroupings (groupings : List Item) :
    P Unit (m.validateGroupings options groupings) := by
  induction groupings with
  | nil => exact h.pure ()
  | cons grouping rest ih =>
    unfold Manager.validateGroupings
    have hsilent : ∀ _ : Binary64, P Unit (pure ()) := fun _ => h.pure ()
    apply h.bind (h.validateWith options hsilent grouping true)
    intro outcome
    cases outcome with
    | done => exact ih
    | failed f => exact ih
    | crashed => exact h.stop _

/-! ## An item and what it contains -/

theorem refreshPhysicalFolder (folder : Item) :
    P Unit (m.refreshPhysicalFolder options folder) := by
  unfold Manager.refreshPhysicalFolder
  apply h.during
  apply h.bind (h.single folder options)
  intro _
  exact h.validate options folder true

theorem refreshFolders (folders : List Item) : P Unit (m.refreshFolders options folders) := by
  induction folders with
  | nil => exact h.pure ()
  | cons folder rest ih =>
    unfold Manager.refreshFolders
    apply h.bind h.checkCancelled
    intro _
    apply h.bind (h.attempt (h.refreshPhysicalFolder options folder))
    intro outcome
    split
    · exact h.stop _
    · exact ih

/-- What happens between the start and the completion of the refresh of an item. -/
theorem withinItem : P Unit (do
    let _ ← m.refreshSingle item options
    if item.kind = .collectionFolder then m.refreshCollection item options
    else if item.kind.isFolder then m.validate item options false
    else pure ()) := by
  apply h.bind (h.single item options)
  intro _
  split
  · unfold Manager.refreshCollection
    apply h.bind (h.note rfl)
    intro _
    apply h.bind h.read
    intro w
    exact h.refreshFolders options _
  · split
    · exact h.validate options item false
    · exact h.pure ()

theorem refreshItem : P Unit (m.refreshItem item options) :=
  h.during (h.withinItem item options) item

theorem refreshArtist (artist : Item) : P Unit (m.refreshArtist artist options) := by
  unfold Manager.refreshArtist
  apply h.bind (h.note rfl)
  intro _
  apply h.bind h.read
  intro w
  apply h.bind (h.validateGroupings options _)
  intro _
  apply h.bind h.checkCancelled
  intro _
  apply h.bind (h.attempt (h.during (h.single artist options) artist))
  intro outcome
  split
  · exact h.stop _
  · exact h.pure ()

theorem carryOut (call : RefreshCall) : P Unit (m.carryOut call) := by
  cases call with
  | refresh item options => exact h.refreshItem item options
  | refreshInFull id =>
    unfold Manager.carryOut Manager.refreshInFull
    apply h.bind h.read
    intro w
    cases m.host.item? w.state id with
    | some item => exact h.refreshItem item .full
    | none => exact h.stop _
  | refreshQueued item options =>
    unfold Manager.carryOut Manager.refreshQueued
    dsimp only
    split
    · exact h.refreshArtist options item
    · exact h.refreshItem item options

end Assembles

/-- A property of actions that is kept by every way of composing a call, and holds of all that
leaves the tracker alone. -/
structure Composes (P : (α : Type) → RefreshM σ α → Prop) : Prop where
  untracked {α : Type} {x : RefreshM σ α} (hx : Untracked x) : P α x
  bind {α β : Type} {x : RefreshM σ α} {f : α → RefreshM σ β} (hx : P α x)
    (hf : ∀ a, P β (f a)) : P β (x >>= f)
  /-- the outside takes the world and gives it back with its tracker and its journal -/
  exchange {α : Type} {g : World σ → World σ} {k : World σ → RefreshM σ α}
    (htracker : ∀ w, (g w).tracker = w.tracker) (hjournal : ∀ w, (g w).journal = w.journal)
    (hk : ∀ w, P α (k w)) : P α (do
      let w ← get
      set (g w)
      k w)
  attempt {α : Type} {x : RefreshM σ α} (hx : P α x) : P (Except RefreshError α) (attempt x)
  reportLeniently (item : Item) (progress : Binary64) : P Unit (reportLeniently item progress)
  during {α : Type} {x : RefreshM σ α} (hx : P α x) (item : Item) : P α (during item x)

namespace Composes

variable {P : (α : Type) → RefreshM σ α → Prop} (h : Composes P) (m : Manager σ)

include h

theorem assembles : Assembles m P where
  pure a := h.untracked (.pure a)
  stop e := h.untracked (untracked_sequences.stop e)
  read := h.untracked .get
  bind := h.bind
  note hplain := h.untracked (untracked_sequences.note hplain)
  exchange := h.exchange
  single item options := h.untracked (m.refreshSingle_untracked item options)
  attempt := h.attempt
  reportLeniently := h.reportLeniently
  during := h.during

theorem withinItem (item : Item) (options : RefreshOptions) : P Unit (do
    let _ ← m.refreshSingle item options
    if item.kind = .collectionFolder then m.refreshCollection item options
    else if item.kind.isFolder then m.validate item options false
    else pure ()) :=
  (h.assembles m).withinItem item options

theorem carryOut (call : RefreshCall) : P Unit (m.carryOut call) := (h.assembles m).carryOut call

end Composes

end RefreshM

end MediaRefresh
