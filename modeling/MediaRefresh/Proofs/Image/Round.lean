import MediaRefresh.Proofs.Image.Supply

/-!
# Images: the turns of the providers

A gathering of images asks providers one after the other.  `ImageRound` follows it turn by
turn: which types a provider can supply, which of them it was asked for, and what it
supplied.  Every run of `Manager.gatherImages` is a round of the selected providers in their
order, or the beginning of one that a cancellation has stopped.
-/

set_option autoImplicit false

namespace MediaRefresh

open RefreshM

variable {σ : Type}

/-! ## One turn -/

/-- The turn of an image provider. -/
structure ImageTurn (σ : Type) where
  provider : ImageProvider σ
  /-- the types that the provider can supply -/
  supported : List ImageType
  /-- those that it was asked for -/
  wanted : List ImageType
  supply : Supply

namespace ImageTurn

/-- Whether the provider failed before it came to its end. -/
def failed (t : ImageTurn σ) : Bool := t.supply.failure.isSome

/-- The types that count as filled after the turn. -/
def filled (t : ImageTurn σ) : List ImageType := if t.failed then [] else t.supply.types

end ImageTurn

/-- The types that a provider is asked for. -/
def ImageGathering.wantedOf (g : ImageGathering) (options : RefreshOptions)
    (p : ImageProvider σ) : List ImageType := (p.types g.item).filter (g.wants options)

/-- The turn of a provider that supplied this. -/
def ImageProvider.imageTurn (p : ImageProvider σ) (options : RefreshOptions)
    (g : ImageGathering) (s : Supply) : ImageTurn σ :=
  ⟨p, p.types g.item, g.wantedOf options p, s⟩

theorem ImageGathering.take_filled (p : ImageProvider σ) (options : RefreshOptions)
    (g : ImageGathering) (s : Supply) :
    (g.take s).filled = g.filled ++ (p.imageTurn options g s).filled := by
  unfold take ImageTurn.filled ImageTurn.failed ImageProvider.imageTurn
  cases s.failure.isSome with
  | true => exact (List.append_nil _).symm
  | false => rfl

namespace Manager

variable (m : Manager σ) {p : ImageProvider σ} {g : ImageGathering} {options : RefreshOptions}
  {language : String} {w mid : World σ} {s : Supply}

theorem consultImages_of_cancelled (h : w.cancelled = true) :
    m.consultImages options language g p w = .error (.failed .cancelled) w :=
  bind_of_error (checkCancelled_of_cancelled h)

theorem consultImages_of_nothing (h : w.cancelled = false)
    (hnothing : g.wantedOf options p = []) :
    m.consultImages options language g p w = .ok g w := by
  unfold consultImages
  rw [bind_of_ok (checkCancelled_of_active h)]
  unfold ImageGathering.wantedOf at hnothing
  dsimp only
  rw [hnothing]
  rfl

/-- Only a failure at the time of a cancellation ends the run with the turn. -/
theorem consultImages_of_supply (h : w.cancelled = false)
    (hsomething : g.wantedOf options p ≠ [])
    (hsupply : m.supply p language g.item (g.wantedOf options p) w = .ok s mid) :
    m.consultImages options language g p w =
      if s.failure.isSome && mid.cancelled then .error (.failed .cancelled) mid
      else .ok (g.take s) mid := by
  unfold consultImages
  rw [bind_of_ok (checkCancelled_of_active h)]
  unfold ImageGathering.wantedOf at hsomething hsupply
  dsimp only
  rw [if_neg (by simpa using hsomething), bind_of_ok hsupply]
  cases s.failure.isSome with
  | false => rfl
  | true =>
    cases hcancelled : mid.cancelled with
    | true => exact bind_of_error (checkCancelled_of_cancelled hcancelled)
    | false => exact bind_of_ok (checkCancelled_of_active hcancelled)

end Manager

/-! ## A round of turns -/

section Rounds

variable {m : Manager σ} {options : RefreshOptions} {language : String}

/-- Turns one after the other, from a world and a gathering to those after the last turn. -/
inductive ImageRound (m : Manager σ) (options : RefreshOptions) (language : String) :
    World σ → ImageGathering → List (ImageTurn σ) → World σ → ImageGathering → Prop where
  /-- nobody has a turn -/
  | done (w : World σ) (g : ImageGathering) : ImageRound m options language w g [] w g
  /-- nothing is wanted of a provider, and then come others -/
  | passed {w w' : World σ} {g g' : ImageGathering} {turns : List (ImageTurn σ)}
      {p : ImageProvider σ} (active : w.cancelled = false) (nothing : g.wantedOf options p = [])
      (rest : ImageRound m options language w g turns w' g') :
      ImageRound m options language w g (p.imageTurn options g .none :: turns) w' g'
  /-- a provider is asked, and then come others -/
  | asked {w mid w' : World σ} {g g' : ImageGathering} {turns : List (ImageTurn σ)}
      {p : ImageProvider σ} {s : Supply} (active : w.cancelled = false)
      (something : g.wantedOf options p ≠ [])
      (supplied : m.supply p language g.item (g.wantedOf options p) w = .ok s mid)
      (rest : ImageRound m options language mid (g.take s) turns w' g') :
      ImageRound m options language w g (p.imageTurn options g s :: turns) w' g'

namespace ImageRound

variable {w w' : World σ} {g g' : ImageGathering} {turns before after : List (ImageTurn σ)}
  {t : ImageTurn σ}

theorem origin_eq (h : ImageRound m options language w g turns w' g') : g'.origin = g.origin := by
  induction h with
  | done => rfl
  | passed _ _ _ ih => exact ih
  | asked _ _ _ _ ih => exact ih

theorem recorded_eq (h : ImageRound m options language w g turns w' g') :
    g'.recorded = g.recorded ++ turns.flatMap (·.supply.recorded) := by
  induction h with
  | done => exact (List.append_nil _).symm
  | passed _ _ _ ih => exact ih
  | asked _ _ _ _ ih =>
    rw [ih, ImageGathering.take, List.append_assoc]
    rfl

/-- What a provider supplied before it failed does not count as filled. -/
theorem filled_eq (h : ImageRound m options language w g turns w' g') :
    g'.filled = g.filled ++ turns.flatMap ImageTurn.filled := by
  induction h with
  | done => exact (List.append_nil _).symm
  | @passed w w' g g' turns p _ _ _ ih =>
    have hempty : (p.imageTurn options g .none).filled = [] := rfl
    rw [ih, List.flatMap_cons, hempty, List.nil_append]
  | @asked w mid w' g g' turns p s _ _ _ _ ih =>
    rw [ih, ImageGathering.take_filled p options, List.append_assoc, List.flatMap_cons]

/-- Whatever was supplied is of types that were wanted. -/
theorem serves (h : ImageRound m options language w g turns w' g') :
    ∀ t ∈ turns, t.supply.Serves m.StoresAsAsked t.wanted := by
  induction h with
  | done => simp
  | passed _ _ _ ih => exact List.forall_mem_cons.mpr ⟨Supply.serves_none, ih⟩
  | @asked w mid w' g g' turns p s _ _ hsupply _ ih =>
    refine List.forall_mem_cons.mpr ⟨?_, ih⟩
    obtain ⟨s', mid', hsupply', hs'⟩ := m.supply_returns p g.item language w
    rw [hsupply] at hsupply'
    cases hsupply'
    exact hs'

/-- A turn in the middle comes after a round of those before it, and starts one of those
behind it. -/
theorem at_turn (h : ImageRound m options language w g (before ++ t :: after) w' g') :
    ∃ mid gmid, ImageRound m options language w g before mid gmid ∧
      ImageRound m options language mid gmid (t :: after) w' g' ∧
      t = t.provider.imageTurn options gmid t.supply := by
  induction before generalizing w g with
  | nil =>
    refine ⟨w, g, .done w g, h, ?_⟩
    cases h with
    | passed => rfl
    | asked => rfl
  | cons first rest ih =>
    cases h with
    | passed hactive hnothing hrest =>
      obtain ⟨mid, gmid, hround, hturn⟩ := ih hrest
      exact ⟨mid, gmid, .passed hactive hnothing hround, hturn⟩
    | asked hactive hsomething hsupply hrest =>
      obtain ⟨mid, gmid, hround, hturn⟩ := ih hrest
      exact ⟨mid, gmid, .asked hactive hsomething hsupply hround, hturn⟩

/-- Of a provider in the middle all that it can supply and that is still wanted is asked. -/
theorem mem_wanted (h : ImageRound m options language w g (before ++ t :: after) w' g') :
    ∃ mid gmid, ImageRound m options language w g before mid gmid ∧
      ImageRound m options language mid gmid (t :: after) w' g' ∧
      ∀ kind, kind ∈ t.wanted ↔ kind ∈ t.supported ∧ gmid.wants options kind = true := by
  obtain ⟨mid, gmid, hbefore, hafter, hturn⟩ := h.at_turn
  refine ⟨mid, gmid, hbefore, hafter, fun kind => ?_⟩
  rw [hturn]
  exact List.mem_filter

end ImageRound

/-! ## Every run is a round -/

/-- How asking image providers in order ends: all of them had their turn, or a cancellation
was found after the first few. -/
inductive ImageRoundEnd (m : Manager σ) (options : RefreshOptions) (language : String)
    (w : World σ) (g : ImageGathering) (providers : List (ImageProvider σ)) :
    EStateM.Result Interrupt (World σ) ImageGathering → Prop where
  | all {turns : List (ImageTurn σ)} {w' : World σ} {g' : ImageGathering}
      (round : ImageRound m options language w g turns w' g')
      (asked : turns.map ImageTurn.provider = providers) :
      ImageRoundEnd m options language w g providers (.ok g' w')
  | stopped {turns : List (ImageTurn σ)} {w' : World σ} {g' : ImageGathering}
      (round : ImageRound m options language w g turns w' g')
      (asked : turns.map ImageTurn.provider <+: providers) (cancelled : w'.cancelled = true) :
      ImageRoundEnd m options language w g providers (.error (.failed .cancelled) w')

/-- A turn before the others. -/
theorem ImageRoundEnd.cons {w mid : World σ} {g gmid : ImageGathering} {p : ImageProvider σ}
    {providers : List (ImageProvider σ)} {s : Supply}
    {result : EStateM.Result Interrupt (World σ) ImageGathering}
    (hturn : ∀ {turns w' g'}, ImageRound m options language mid gmid turns w' g' →
      ImageRound m options language w g (p.imageTurn options g s :: turns) w' g')
    (h : ImageRoundEnd m options language mid gmid providers result) :
    ImageRoundEnd m options language w g (p :: providers) result := by
  cases h with
  | all hround hasked => exact .all (hturn hround) (congrArg (p :: ·) hasked)
  | stopped hround hasked hcancelled =>
    exact .stopped (hturn hround) (List.prefix_cons_inj p |>.mpr hasked) hcancelled

/-- By induction on the providers, each with its turn. -/
theorem imageRoundEnd_foldlM (providers : List (ImageProvider σ)) (g : ImageGathering)
    (w : World σ) : ImageRoundEnd m options language w g providers
      (providers.foldlM (m.consultImages options language) g w) := by
  induction providers generalizing g w with
  | nil => exact .all (.done w g) rfl
  | cons p rest ih =>
    rw [List.foldlM_cons]
    cases hactive : w.cancelled with
    | true =>
      rw [bind_of_error (m.consultImages_of_cancelled hactive)]
      exact .stopped (.done w g) List.nil_prefix hactive
    | false =>
      by_cases hsomething : g.wantedOf options p = []
      · rw [bind_of_ok (m.consultImages_of_nothing hactive hsomething)]
        exact .cons (.passed hactive hsomething) (ih g w)
      · obtain ⟨s, mid, hsupply, -⟩ := m.supply_returns p g.item language w
        have hconsult := m.consultImages_of_supply hactive hsomething hsupply
        have hturn {turns : List (ImageTurn σ)} {w' : World σ} {g' : ImageGathering} :
            ImageRound m options language mid (g.take s) turns w' g' →
              ImageRound m options language w g (p.imageTurn options g s :: turns) w' g' :=
          .asked hactive hsomething hsupply
        split at hconsult
        · rename_i hstopped
          rw [bind_of_error hconsult]
          refine .stopped (hturn (.done mid _)) ?_ (Bool.and_eq_true_iff.mp hstopped).2
          exact (List.prefix_cons_inj p).mpr List.nil_prefix
        · rw [bind_of_ok hconsult]
          exact .cons hturn (ih _ mid)

end Rounds

namespace Manager

variable (m : Manager σ)

/-- How gathering images ends. -/
inductive ImageGatherEnd (item : Item) (options : RefreshOptions) (w : World σ) :
    EStateM.Result Interrupt (World σ) (Item × Update) → Prop where
  | gathered {turns : List (ImageTurn σ)} {w' : World σ} {g : ImageGathering}
      (round : ImageRound m options (m.language item) w ⟨item, [], []⟩ turns w' g)
      (asked : turns.map ImageTurn.provider =
        m.imageProviders w.state item options.imageMode false) :
      ImageGatherEnd item options w (.ok (g.item, g.update) w')
  | stopped {turns : List (ImageTurn σ)} {w' : World σ} {g : ImageGathering}
      (round : ImageRound m options (m.language item) w ⟨item, [], []⟩ turns w' g)
      (asked : turns.map ImageTurn.provider <+:
        m.imageProviders w.state item options.imageMode false)
      (cancelled : w'.cancelled = true) :
      ImageGatherEnd item options w (.error (.failed .cancelled) w')

/-- The providers that are selected in the world as it is, one after the other. -/
theorem gatherImages_eq (item : Item) (options : RefreshOptions) (w : World σ) :
    m.gatherImages item options w =
      ((m.imageProviders w.state item options.imageMode false).foldlM
        (m.consultImages options (m.language item)) ⟨item, [], []⟩ >>=
          fun g => pure (g.item, g.update)) w := rfl

theorem gatherImages_end (item : Item) (options : RefreshOptions) (w : World σ) :
    m.ImageGatherEnd item options w (m.gatherImages item options w) := by
  have hend : ImageRoundEnd m options (m.language item) w ⟨item, [], []⟩ _ _ :=
    imageRoundEnd_foldlM (m.imageProviders w.state item options.imageMode false) ⟨item, [], []⟩ w
  rw [gatherImages_eq]
  cases hrun : (m.imageProviders w.state item options.imageMode false).foldlM
      (m.consultImages options (m.language item)) ⟨item, [], []⟩ w with
  | ok g w' =>
    rw [hrun] at hend
    rw [bind_of_ok hrun]
    cases hend with
    | all hround hasked => exact .gathered hround hasked
  | error e w' =>
    rw [hrun] at hend
    rw [bind_of_error hrun]
    cases hend with
    | stopped hround hasked hcancelled => exact .stopped hround hasked hcancelled

end Manager

end MediaRefresh
