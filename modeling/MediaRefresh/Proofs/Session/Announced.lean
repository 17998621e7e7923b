import MediaRefresh.Proofs.Queue.Acceptance
import MediaRefresh.Proofs.Session.Run

/-!
# Sessions: refreshes announced as queued

Nothing that a manager does to refresh items announces a refresh as queued.  A call that queues
one announces it, and then hands it to the queue: the queue accepts what comes before its
shutdown, and what it refuses has been announced as queued all the same.  The order is that of
the announcements on one side and that in which requests are handed over on the other, and these
are the same if the calls do not overtake each other.
-/

set_option autoImplicit false

namespace MediaRefresh

variable {σ α β : Type}

/-- The item and the priority of a refresh that is announced as queued. -/
def Entry.queued? : Entry → Option (ItemId × Priority)
  | announced (.queued item priority) => some (item, priority)
  | _ => none

/-- Which refreshes have been announced as queued, in order. -/
def queuedIn (lines : List Entry) : List (ItemId × Priority) := lines.filterMap Entry.queued?

@[simp] theorem queuedIn_append (lines more : List Entry) :
    queuedIn (lines ++ more) = queuedIn lines ++ queuedIn more := List.filterMap_append

/-- What is announced of a request when it is queued. -/
def RefreshRequest.announced (r : RefreshRequest) : ItemId × Priority := (r.item, r.priority)

/-- To announce a refresh as queued is to tell of refreshes. -/
theorem queuedIn_filter_tracks (lines : List Entry) :
    queuedIn (lines.filter Entry.tracks) = queuedIn lines := by
  unfold queuedIn
  rw [List.filterMap_filter]
  congr
  funext e
  cases e with
  | announced event => cases event <;> rfl
  | _ => rfl

namespace RefreshM

/-- From any world the action announces no refresh as queued. -/
def Unqueued (x : RefreshM σ α) : Prop :=
  ∀ w, queuedIn (World.after (x w)).journal = queuedIn w.journal

namespace Unqueued

variable {x : RefreshM σ α} {f : α → RefreshM σ β}

theorem of_untracked (h : Untracked x) : Unqueued x := by
  intro w
  have hlines : (World.after (x w)).journal.filter Entry.tracks = w.journal.filter Entry.tracks :=
    congrArg Prod.snd (h w)
  rw [← queuedIn_filter_tracks, hlines, queuedIn_filter_tracks]

protected theorem bind (hx : Unqueued x) (hf : ∀ a, Unqueued (f a)) : Unqueued (x >>= f) := by
  intro w
  have hfirst := hx w
  cases hres : x w with
  | ok a mid =>
    rw [hres] at hfirst
    rw [bind_of_ok hres, hf a mid]
    exact hfirst
  | error e mid =>
    rw [hres] at hfirst
    rw [bind_of_error hres]
    exact hfirst

/-- The outside takes the world and gives it back with the same journal. -/
theorem exchange {g : World σ → World σ} {k : World σ → RefreshM σ α}
    (hg : ∀ w, (g w).journal = w.journal) (hk : ∀ w, Unqueued (k w)) :
    Unqueued (do
      let w ← get
      set (g w)
      k w) := fun w => (hk w (g w)).trans (congrArg queuedIn (hg w))

protected theorem attempt (hx : Unqueued x) : Unqueued (attempt x) := by
  intro w
  have hwithin := hx w
  rw [attempt_apply]
  cases hres : x w with
  | ok a mid => rwa [hres] at hwithin
  | error e mid =>
    rw [hres] at hwithin
    cases e <;> exact hwithin

protected theorem reportLeniently (item : Item) (progress : Numeric.Binary64) :
    Unqueued (reportLeniently item progress : RefreshM σ Unit) := by
  intro w
  have hevent {tracker : Tracker} {event : RefreshEvent}
      (h : w.tracker.report item progress = .ok (tracker, event)) :
      Entry.queued? (.announced event) = none := by
    unfold Tracker.report at h
    split at h
    · cases h
      rfl
    · cases h
  rw [reportLeniently_apply]
  change queuedIn (reportedOn item progress w).journal = queuedIn w.journal
  unfold reportedOn
  cases hreport : w.tracker.report item progress with
  | ok told => simp [queuedIn, hevent hreport]
  | error e => rfl

protected theorem during (hx : Unqueued x) (item : Item) : Unqueued (during item x) := by
  intro w
  have hwithin := hx (startedOn item w)
  have hstarted : queuedIn (startedOn item w).journal = queuedIn w.journal := by
    simp [startedOn, Tracker.start, queuedIn, Entry.queued?]
  have hcompleted (last : World σ) :
      queuedIn (completedOn item last).journal = queuedIn last.journal := by
    simp [completedOn, Tracker.complete, queuedIn, Entry.queued?]
  rw [during_apply]
  cases hres : x (startedOn item w) with
  | ok a last =>
    rw [hres] at hwithin
    exact (hcompleted last).trans (hwithin.trans hstarted)
  | error e last =>
    rw [hres] at hwithin
    cases e with
    | failed e => exact (hcompleted last).trans (hwithin.trans hstarted)
    | crashed => exact hwithin.trans hstarted

end Unqueued

end RefreshM

open RefreshM

theorem RefreshM.unqueued_composes : Composes fun _ (x : RefreshM σ _) => Unqueued x where
  untracked := .of_untracked
  bind := .bind
  exchange _ hjournal hk := .exchange hjournal hk
  attempt := .attempt
  reportLeniently := .reportLeniently
  during := .during

/-! ## What an act announces and what the queue accepts -/

namespace SessionAct

/-- The requests that a run announces as queued. -/
def announcedRequests (as : List (SessionAct σ)) : List RefreshRequest := as.filterMap announced?

/-- The requests that a run hands to the queue, accepted or not. -/
def requests (as : List (SessionAct σ)) : List RefreshRequest := as.filterMap request?

/-- The part of a run before its first shutdown. -/
def beforeShutdown (as : List (SessionAct σ)) : List (SessionAct σ) :=
  as.takeWhile (!·.isShutdown)

/-- The part of a run from its first shutdown on. -/
def sinceShutdown (as : List (SessionAct σ)) : List (SessionAct σ) :=
  as.dropWhile (!·.isShutdown)

/-- Calls that queue refreshes hand their requests to the queue in the order in which they have
announced them, as they do if they do not overlap.  Before the run the requests `underway` have
been announced and not handed over yet, and behind it the requests `left`. -/
inductive InTurn : (underway : List RefreshRequest) → List (SessionAct σ) →
    (left : List RefreshRequest) → Prop where
  | done (underway : List RefreshRequest) : InTurn underway [] underway
  | announce {underway left : List RefreshRequest} {rest : List (SessionAct σ)}
      (r : RefreshRequest) (later : InTurn (underway ++ [r]) rest left) :
      InTurn underway (.announce r :: rest) left
  | enqueue {underway left : List RefreshRequest} {rest : List (SessionAct σ)}
      (r : RefreshRequest) (inRuntime : Bool) (later : InTurn underway rest left) :
      InTurn (r :: underway) (.enqueue r inRuntime :: rest) left
  | other {underway left : List RefreshRequest} {a : SessionAct σ} {rest : List (SessionAct σ)}
      (announces : a.announced? = none) (asks : a.request? = none)
      (later : InTurn underway rest left) : InTurn underway (a :: rest) left

theorem announcedRequests_cons (a : SessionAct σ) (as : List (SessionAct σ)) :
    announcedRequests (a :: as) = a.announced?.toList ++ announcedRequests as := by
  cases h : a.announced? <;> simp [announcedRequests, h]

theorem requests_cons (a : SessionAct σ) (as : List (SessionAct σ)) :
    requests (a :: as) = a.request?.toList ++ requests as := by
  cases h : a.request? <;> simp [requests, h]

/-- By induction on the run: what is announced is handed over, in order, or left at the end. -/
theorem InTurn.announcedRequests_eq {underway left : List RefreshRequest} {as : List (SessionAct σ)}
    (h : InTurn underway as left) : underway ++ announcedRequests as = requests as ++ left := by
  induction h with
  | done underway => exact List.append_nil underway
  | announce r _ ih =>
    rw [announcedRequests_cons, requests_cons, ← List.append_assoc]
    exact ih
  | enqueue r inRuntime _ ih =>
    rw [announcedRequests_cons, requests_cons]
    exact congrArg (r :: ·) ih
  | other announces asks _ ih =>
    rw [announcedRequests_cons, requests_cons, announces, asks]
    exact ih

theorem requests_split (as : List (SessionAct σ)) :
    requests as = requests (beforeShutdown as) ++ requests (sinceShutdown as) := by
  rw [requests, requests, requests, ← List.filterMap_append]
  exact congrArg _ List.takeWhile_append_dropWhile.symm

end SessionAct

open SessionAct

namespace Drainage

variable {throttle : Nat} {d e : Drainage} {a : Act}

theorem Step.accepts_nothing (hstep : Step throttle d a e)
    (hasks : ∀ r inRuntime, a ≠ .enqueue r inRuntime) (hcloses : a ≠ .shutdown) :
    e.accepted = d.accepted ∧ e.queue.closed = d.queue.closed := by
  constructor
  · cases hstep.queueStep with
    | still _ _ haccepted => exact haccepted
    | @accepted r inRuntime hact => exact absurd hact (hasks r inRuntime)
    | popped _ _ _ _ haccepted => exact haccepted
  · cases hstep with
    | shutdown => exact absurd rfl hcloses
    | _ => rfl

theorem Passes.accepts_nothing (h : d.Passes throttle e) :
    e.accepted = d.accepted ∧ e.queue.closed = d.queue.closed := by
  induction h with
  | refl => exact ⟨rfl, rfl⟩
  | step first silent _ ih =>
    obtain ⟨haccepted, hclosed⟩ := (step_of_perform first).accepts_nothing
      (fun r inRuntime ha => by simp [ha, Act.silent] at silent)
      (fun ha => by simp [ha, Act.silent] at silent)
    exact ⟨ih.1.trans haccepted, ih.2.trans hclosed⟩

end Drainage

namespace Session

variable {s : Session σ} {a : SessionAct σ} {e : Drainage}

theorem Effect.closed_eq (h : s.Effect a e) :
    e.queue.closed = (s.queue.closed || a.isShutdown) := by
  have hkeeps (hsame : e.queue.closed = s.drainage.queue.closed) :
      e.queue.closed = (s.queue.closed || false) := hsame.trans (Bool.or_false _).symm
  cases h with
  | asked r inRuntime step =>
    refine hkeeps ?_
    cases Drainage.step_of_perform step <;> rfl
  | closed step =>
    cases Drainage.step_of_perform step
    exact (Bool.or_true _).symm
  | lookedUp current step =>
    exact hkeeps ((Drainage.step_of_perform step).accepts_nothing (by simp) (by simp)).2
  | silent asks closes looks passes =>
    rw [closes]
    exact hkeeps passes.accepts_nothing.2

/-- An open queue accepts what an act queues, a closed one nothing. -/
theorem Effect.accepted_eq (h : s.Effect a e) :
    e.accepted.map Ticket.request = s.drainage.accepted.map Ticket.request ++
      if s.queue.closed then [] else a.request?.toList := by
  have hkeeps (hsame : e.accepted = s.drainage.accepted) :
      e.accepted.map Ticket.request = s.drainage.accepted.map Ticket.request ++
        if s.queue.closed then [] else [] := by simp [hsame]
  cases h with
  | asked r inRuntime step =>
    cases Drainage.step_of_perform step with
    | refuse _ _ hclosed =>
      have hclosed' : s.queue.closed = true := hclosed
      simp [hclosed']
    | accept _ _ hopened =>
      have hopened' : s.queue.closed = false := hopened
      simp [hopened', SessionAct.request?]
    | start _ hopened =>
      have hopened' : s.queue.closed = false := hopened
      simp [hopened', SessionAct.request?]
  | closed step =>
    cases Drainage.step_of_perform step
    exact hkeeps rfl
  | lookedUp current step =>
    exact hkeeps ((Drainage.step_of_perform step).accepts_nothing (by simp) (by simp)).1
  | silent asks closes looks passes =>
    rw [asks]
    exact hkeeps passes.accepts_nothing.1

/-- No other act announces a refresh as queued. -/
theorem queuedIn_perform (s : Session σ) (a : SessionAct σ) :
    queuedIn (s.perform a).world.journal =
      queuedIn s.world.journal ++ (a.announced?.map RefreshRequest.announced).toList := by
  have hkeeps {w : World σ} (h : queuedIn w.journal = queuedIn s.world.journal) :
      queuedIn w.journal = queuedIn s.world.journal ++ [] := h.trans (List.append_nil _).symm
  cases a with
  | announce r => exact queuedIn_append _ _
  | call cancelled c =>
    refine hkeeps ?_
    rw [perform, world_call]
    exact RefreshM.unqueued_composes.carryOut s.manager c _
  | turn moment =>
    refine hkeeps ?_
    obtain ⟨wait, ⟨hworld, -⟩ | ⟨r, -, hbegins, hworld, -⟩⟩ := s.turn_served moment
    · rw [hworld]
      rfl
    · have hrefresh : queuedIn (r.ends s.manager).journal = queuedIn r.begins.journal :=
        RefreshM.unqueued_composes.carryOut s.manager
          (.refreshQueued r.item r.ticket.request.options) r.begins
      rw [hworld, hrefresh, hbegins]
      rfl
  | _ => exact hkeeps rfl

theorem queuedIn_performAll (s : Session σ) (as : List (SessionAct σ)) :
    queuedIn (s.performAll as).world.journal =
      queuedIn s.world.journal ++ (announcedRequests as).map RefreshRequest.announced := by
  induction as generalizing s with
  | nil => exact (List.append_nil _).symm
  | cons a rest ih =>
    rw [performAll_cons, ih, queuedIn_perform, announcedRequests_cons, List.map_append,
      List.append_assoc]
    cases a.announced? <;> rfl

/-- By induction on the run: a queue that is open accepts up to the first shutdown. -/
theorem accepted_performAll (s : Session σ) (as : List (SessionAct σ)) :
    (s.performAll as).drainage.accepted.map Ticket.request =
      s.drainage.accepted.map Ticket.request ++
        if s.queue.closed then [] else requests (beforeShutdown as) := by
  induction as generalizing s with
  | nil => simp [performAll, beforeShutdown, requests]
  | cons a rest ih =>
    have hclosed : (s.perform a).queue.closed = (s.queue.closed || a.isShutdown) :=
      (s.effect a).closed_eq
    rw [performAll_cons, ih, (s.effect a).accepted_eq, hclosed, List.append_assoc]
    congr 1
    cases hshutdown : a.isShutdown with
    | true =>
      have hnone : a.request? = none := by cases a <;> first | rfl | cases hshutdown
      simp [hnone, hshutdown, beforeShutdown, requests]
    | false =>
      have hbefore : beforeShutdown (a :: rest) = a :: beforeShutdown rest := by
        simp [beforeShutdown, hshutdown]
      rw [hbefore, requests_cons, Bool.or_false]
      split <;> rfl

/-- In every run the queue has accepted, in order, what was handed to it before its shutdown, and
the announcements of queued refreshes stand in the order in which they were made.  Where the
calls do not overtake each other, these are the announcements of the accepted requests, in order,
and behind them those of the requests that came after the shutdown and of those that have not
come to the queue yet.  So the two agree exactly when there were none of these. -/
theorem announced_as_queued (m : Manager σ) (state : σ) (as : List (SessionAct σ)) :
    let s := (fresh m state).performAll as
    let accepted := s.drainage.accepted.map Ticket.request
    accepted = requests (beforeShutdown as) ∧
      queuedIn s.world.journal = (announcedRequests as).map RefreshRequest.announced ∧
      ∀ left, InTurn [] as left →
        queuedIn s.world.journal =
            (accepted ++ (requests (sinceShutdown as) ++ left)).map RefreshRequest.announced ∧
          (queuedIn s.world.journal = accepted.map RefreshRequest.announced ↔
            requests (sinceShutdown as) = [] ∧ left = []) := by
  intro s accepted
  have haccepted : accepted = requests (beforeShutdown as) :=
    (fresh m state).accepted_performAll as
  have hannounced : queuedIn s.world.journal =
      (announcedRequests as).map RefreshRequest.announced := (fresh m state).queuedIn_performAll as
  refine ⟨haccepted, hannounced, fun left hturn => ?_⟩
  have hqueued : announcedRequests as = accepted ++ (requests (sinceShutdown as) ++ left) := by
    have hall : announcedRequests as = requests as ++ left := hturn.announcedRequests_eq
    rw [hall, requests_split, haccepted, List.append_assoc]
  rw [hannounced, hqueued]
  refine ⟨rfl, ?_⟩
  rw [List.map_append, List.append_right_eq_self, List.map_eq_nil_iff, List.append_eq_nil_iff]

open Rehearsal in
/-- A request that the queue refuses because it has been shut down is announced as queued, though
no other call is made meanwhile. -/
theorem refused_yet_announced :
    ¬ ∀ (m : Manager Stage) (state : Stage) (as : List (SessionAct Stage)), InTurn [] as [] →
      queuedIn ((fresh m state).performAll as).world.journal =
        (((fresh m state).performAll as).drainage.accepted.map Ticket.request).map
          RefreshRequest.announced := by
  intro h
  let r : RefreshRequest := ⟨shelf.id, .standard, .high⟩
  have hturn : InTurn [] [(.shutdown : SessionAct Stage), .announce r, .enqueue r true] [] :=
    .other rfl rfl (.announce r (.enqueue r true (.done [])))
  cases h (shelves damaged) Manager.emptyStage _ hturn

end Session

end MediaRefresh
