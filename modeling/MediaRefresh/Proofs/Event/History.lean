import MediaRefresh.Event.Bus
import Mathlib.Data.List.DropRight
import Mathlib.Data.List.Forall2
import Mathlib.Data.List.Perm.Basic
import Mathlib.Data.List.ReduceOption

/-!
# Events: the history of the ring and that of the channel

Events are broadcast, receivers subscribe and read, and the ring is asked for recent events,
in any order, and broadcasts may overlap.  Beside the bus stand the calls with their answers,
from which everything is read: the events that went into the ring, those that went into the
channel, those among them since a receiver subscribed, and what it has been told of these.  A
receiver has a place for each event since its subscription, in order: filled with the event if
it has read it, empty if a lag gave it up.

A broadcast that overtakes another leaves the ring and the channel in different orders.  If none
does, there is one history, and the ring and every receiver tell of the same events at the same
distance from the newest one.

The channel of a bus keeps exactly `capacity` events, as one made for a power of two does.
-/

set_option autoImplicit false

namespace MediaRefresh

/-! ## What a receiver is told -/

namespace Receipt

/-- The places that a receipt adds to those of its receiver: one for the event that is read,
and an empty one for each event that was missed. -/
def places : Receipt → List (Option RefreshEvent)
  | empty => []
  | lagged missed => List.replicate missed none
  | event e => [some e]

/-- What a receiver is answered by a channel that keeps `capacity` events: it gives up the
oldest of the unread events if there are more, and reads the oldest one otherwise. -/
def due (capacity : Nat) (unread : List RefreshEvent) : Receipt :=
  if capacity < unread.length then lagged (unread.length - capacity)
  else unread.head?.elim empty event

end Receipt

/-- A place tells of an event if it holds that event or nothing. -/
def TellsOf (place : Option RefreshEvent) (e : RefreshEvent) : Prop :=
  ∀ shown ∈ place, shown = e

section Places

variable {places : List (Option RefreshEvent)} {es : List RefreshEvent}

theorem tellsOf_replicate_none (es : List RefreshEvent) :
    List.Forall₂ TellsOf (List.replicate es.length none) es := by
  induction es with
  | nil => exact .nil
  | cons e rest ih => exact .cons (by simp [TellsOf]) ih

theorem tellsOf_map_some (es : List RefreshEvent) : List.Forall₂ TellsOf (es.map some) es := by
  rw [List.forall₂_map_left_iff, List.forall₂_same]
  intro e _ shown hshown
  exact (Option.mem_some.mp hshown).symm

theorem tellsOf_append {more : List (Option RefreshEvent)} {later : List RefreshEvent}
    (h : List.Forall₂ TellsOf places es) (hmore : List.Forall₂ TellsOf more later) :
    List.Forall₂ TellsOf (places ++ more) (es ++ later) :=
  List.rel_append h hmore

theorem tellsOf_rtake (h : List.Forall₂ TellsOf places es) (n : Nat) :
    List.Forall₂ TellsOf (places.rtake n) (es.rtake n) := by
  rw [List.rtake_eq_reverse_take_reverse, List.rtake_eq_reverse_take_reverse,
    List.forall₂_reverse_iff]
  exact List.forall₂_take n (List.forall₂_reverse_iff.mpr h)

/-- Places without gaps hold the events. -/
theorem eq_map_some_of_tellsOf (h : List.Forall₂ TellsOf places es)
    (hfilled : ∀ place ∈ places, place.isSome = true) : places = es.map some := by
  induction h with
  | nil => rfl
  | @cons place e places es htells _ ih =>
    rw [List.forall_mem_cons] at hfilled
    obtain ⟨shown, rfl⟩ := Option.isSome_iff_exists.mp hfilled.1
    rw [htells shown rfl, ih hfilled.2, List.map_cons]

/-- The receipt that is due tells of the oldest unread events. -/
theorem Receipt.due_tellsOf (capacity : Nat) (unread : List RefreshEvent) :
    List.Forall₂ TellsOf (due capacity unread).places
      (unread.take (due capacity unread).places.length) := by
  unfold due
  split
  · have hlength : (unread.take (unread.length - capacity)).length = unread.length - capacity := by
      rw [List.length_take]
      omega
    have htells := tellsOf_replicate_none (unread.take (unread.length - capacity))
    rw [hlength] at htells
    simpa only [places, List.length_replicate] using htells
  · cases unread with
    | nil => exact .nil
    | cons e rest => exact tellsOf_map_some [e]

end Places

namespace EventBus

/-! ## Runs of calls -/

/-- A call on a bus, or half of one. -/
inductive Call where
  /-- a broadcast starts: its event is put into the ring -/
  | start (e : RefreshEvent)
  /-- of the broadcasts under way one is finished: its event is sent -/
  | finish (place : Nat)
  /-- a receiver subscribes -/
  | subscribe
  /-- a receiver reads -/
  | receive (index : Nat)
  /-- the last `n` events are asked for -/
  | recent (n : Nat)

/-- No broadcast overtakes another: the one that is finished is the oldest under way, as it is
if broadcasts do not overlap. -/
def InTurn (calls : List Call) : Prop := ∀ place, Call.finish place ∈ calls → place = 0

/-- What a call is answered. -/
inductive Answer where
  /-- the event is in the ring -/
  | started
  /-- the event that has been sent, if there was a broadcast to finish -/
  | finished (sent : Option RefreshEvent)
  /-- the new receiver -/
  | subscribed (index : Nat)
  /-- what a receiver gets -/
  | received (receipt : Receipt)
  /-- recent events, newest first -/
  | recalled (events : List RefreshEvent)
  deriving DecidableEq

/-- A bus, and what is being broadcast on it. -/
structure Traffic where
  bus : EventBus
  /-- the events that are in the ring and have not been sent yet, oldest first -/
  underway : List RefreshEvent

/-- What a call does, and its answer. -/
def Traffic.perform (t : Traffic) : Call → Traffic × Answer
  | .start e => (⟨t.bus.retain e, t.underway ++ [e]⟩, .started)
  | .finish place =>
    match t.underway[place]? with
    | some e => (⟨t.bus.send e, t.underway.eraseIdx place⟩, .finished (some e))
    | none => (t, .finished none)
  | .subscribe => ({ t with bus := t.bus.subscribe.1 }, .subscribed t.bus.subscribe.2)
  | .receive index =>
    ({ t with bus := (t.bus.receive index).1 }, .received (t.bus.receive index).2)
  | .recent n => (t, .recalled (t.bus.recent n))

/-- A call with its answer. -/
structure Exchange where
  call : Call
  answer : Answer

/-- The calls that have been made on a bus, and what they have led to. -/
structure Run where
  now : Traffic
  /-- oldest first -/
  log : List Exchange

namespace Run

/-- A new bus, on which no call has been made. -/
def fresh (capacity : Nat) : Run := ⟨⟨ofCapacity capacity, []⟩, []⟩

/-- One more call is made. -/
def next (r : Run) (call : Call) : Run :=
  ⟨(r.now.perform call).1, r.log ++ [⟨call, (r.now.perform call).2⟩]⟩

/-- A sequence of calls is made. -/
def after (r : Run) (calls : List Call) : Run := calls.foldl next r

end Run

/-! ## What is read off the calls -/

/-- The events that an exchange puts into the ring. -/
def Exchange.retained : Exchange → List RefreshEvent
  | ⟨.start e, _⟩ => [e]
  | _ => []

/-- The events that an exchange sends. -/
def Exchange.delivered : Exchange → List RefreshEvent
  | ⟨_, .finished sent⟩ => sent.toList
  | _ => []

/-- The places that an exchange adds to those of a receiver. -/
def Exchange.places (receiver : Nat) : Exchange → List (Option RefreshEvent)
  | ⟨.receive index, .received receipt⟩ => if index = receiver then receipt.places else []
  | _ => []

/-- The events that have been put into the ring, oldest first. -/
def retained (log : List Exchange) : List RefreshEvent := log.flatMap Exchange.retained

/-- The events that have been sent, oldest first. -/
def delivered (log : List Exchange) : List RefreshEvent := log.flatMap Exchange.delivered

/-- A receiver has subscribed. -/
def Subscribed (receiver : Nat) (log : List Exchange) : Prop :=
  .subscribed receiver ∈ log.map Exchange.answer

/-- The events that have been sent since a receiver subscribed, oldest first. -/
def since (receiver : Nat) (log : List Exchange) : List RefreshEvent :=
  delivered (log.dropWhile (·.answer ≠ .subscribed receiver))

/-- What a receiver has been told of the events since it subscribed: what it has read, with an
empty place for each event that was given up in a lag. -/
def told (receiver : Nat) (log : List Exchange) : List (Option RefreshEvent) :=
  log.flatMap (Exchange.places receiver)

/-- The events that a receiver has neither read nor given up. -/
def unread (receiver : Nat) (log : List Exchange) : List RefreshEvent :=
  (since receiver log).drop (told receiver log).length

/-- What a receiver has been told, followed by its unread events. -/
def view (receiver : Nat) (log : List Exchange) : List (Option RefreshEvent) :=
  told receiver log ++ (unread receiver log).map some

/-- What a receiver has read since its last lag, followed by its unread events. -/
def unbroken (receiver : Nat) (log : List Exchange) : List RefreshEvent :=
  ((view receiver log).rtakeWhile Option.isSome).reduceOption

section Readings

variable {receiver : Nat} {log : List Exchange} {x : Exchange}

theorem retained_append (log : List Exchange) (x : Exchange) :
    retained (log ++ [x]) = retained log ++ x.retained := by
  simp [retained]

theorem delivered_append (log : List Exchange) (x : Exchange) :
    delivered (log ++ [x]) = delivered log ++ x.delivered := by
  simp [delivered]

theorem told_append (receiver : Nat) (log : List Exchange) (x : Exchange) :
    told receiver (log ++ [x]) = told receiver log ++ x.places receiver := by
  simp [told]

theorem retained_append_of_silent (h : x.retained = []) :
    retained (log ++ [x]) = retained log := by
  rw [retained_append, h, List.append_nil]

theorem delivered_append_of_silent (h : x.delivered = []) :
    delivered (log ++ [x]) = delivered log := by
  rw [delivered_append, h, List.append_nil]

theorem told_append_of_silent (h : x.places receiver = []) :
    told receiver (log ++ [x]) = told receiver log := by
  rw [told_append, h, List.append_nil]

theorem subscribed_append : Subscribed receiver (log ++ [x]) ↔
    Subscribed receiver log ∨ x.answer = .subscribed receiver := by
  simp [Subscribed, eq_comm]

theorem dropWhile_eq_nil_iff_not_subscribed :
    log.dropWhile (·.answer ≠ .subscribed receiver) = [] ↔ ¬ Subscribed receiver log := by
  simp [Subscribed, List.dropWhile_eq_nil_iff]

theorem since_of_not_subscribed (h : ¬ Subscribed receiver log) : since receiver log = [] := by
  rw [since, dropWhile_eq_nil_iff_not_subscribed.mpr h]
  rfl

theorem since_append_of_subscribed (h : Subscribed receiver log) (x : Exchange) :
    since receiver (log ++ [x]) = since receiver log ++ x.delivered := by
  have hne : ¬ (log.dropWhile (·.answer ≠ .subscribed receiver)).isEmpty = true := by
    rw [List.isEmpty_iff, dropWhile_eq_nil_iff_not_subscribed, not_not]
    exact h
  rw [since, List.dropWhile_append, if_neg hne, delivered_append, since]

theorem since_append_of_not_subscribed (h : ¬ Subscribed receiver log)
    (hx : x.answer = .subscribed receiver) : since receiver (log ++ [x]) = x.delivered := by
  have hnil := List.isEmpty_iff.mpr (dropWhile_eq_nil_iff_not_subscribed.mpr h)
  rw [since, List.dropWhile_append, if_pos hnil, List.dropWhile_cons_of_neg (by simp [hx])]
  exact delivered_append [] x

theorem since_suffix (receiver : Nat) (log : List Exchange) :
    since receiver log <:+ delivered log := by
  obtain ⟨before, hbefore⟩ := List.dropWhile_suffix (l := log)
    (·.answer ≠ .subscribed receiver)
  refine ⟨delivered before, ?_⟩
  unfold since delivered
  rw [← List.flatMap_append, hbefore]

end Readings

/-! ## The bus told from the calls -/

/-- A ring and a channel take in an event alike. -/
theorem take_cons_take (bound : Nat) (e : RefreshEvent) (es : List RefreshEvent) :
    (e :: es.take bound).take bound = (e :: es).take bound := by
  cases bound with
  | zero => rfl
  | succ bound => rw [List.take_succ_cons, List.take_take, List.take_succ_cons,
      Nat.min_eq_left (Nat.le_succ bound)]

/-- A receiver reads what is due and goes on behind what it has been told of. -/
theorem read_eq {bus : EventBus} {all : List RefreshEvent} {next : Nat}
    (hsent : bus.sent = all.length) (hchannel : bus.channel = all.reverse.take bus.capacity)
    (hnext : next ≤ all.length) :
    bus.read next = (Receipt.due bus.capacity (all.drop next),
      next + (Receipt.due bus.capacity (all.drop next)).places.length) := by
  unfold read oldest Receipt.due
  rw [hsent, hchannel, List.length_drop]
  by_cases hlag : next < all.length - bus.capacity
  · have hmore : bus.capacity < all.length - next := by omega
    have hmissed : all.length - bus.capacity - next = all.length - next - bus.capacity := by omega
    have holdest : next + (all.length - next - bus.capacity) = all.length - bus.capacity := by
      omega
    rw [if_pos hlag, if_pos hmore, hmissed, Receipt.places, List.length_replicate, holdest]
  · have hkept : ¬ bus.capacity < all.length - next := by omega
    rw [if_neg hlag, if_neg hkept]
    rcases Nat.lt_or_eq_of_le hnext with hlt | rfl
    · -- The channel stands newest first, so its index counts from the other end.
      have hplace : all.length - 1 - next < bus.capacity := by omega
      have hindex : all.length - 1 - (all.length - 1 - next) = next := by omega
      rw [List.getElem?_take_of_lt hplace, List.getElem?_reverse (by omega), hindex,
        List.getElem?_eq_getElem hlt, List.drop_eq_getElem_cons hlt]
      exact if_pos hlt
    · rw [List.drop_length]
      cases (all.reverse.take bus.capacity)[all.length - 1 - all.length]? with
      | none => rfl
      | some e => exact if_neg (Nat.lt_irrefl _)

/-- A receiver that has subscribed stands in front of its unread events, and what it has been
told tells of those before them. -/
structure Follows (log : List Exchange) (receiver next : Nat) : Prop where
  subscribed : Subscribed receiver log
  next_le : next ≤ (delivered log).length
  unread_eq : unread receiver log = (delivered log).drop next
  told_tells : List.Forall₂ TellsOf (told receiver log)
    ((since receiver log).take (told receiver log).length)

namespace Follows

variable {log : List Exchange} {receiver next : Nat} {x : Exchange}

theorem view_tells (h : Follows log receiver next) :
    List.Forall₂ TellsOf (view receiver log) (since receiver log) := by
  have hall := tellsOf_append h.told_tells (tellsOf_map_some (unread receiver log))
  rwa [unread, List.take_append_drop] at hall

/-- A new receiver has been told of nothing and starts behind all that has been broadcast. -/
theorem start (hsubscribed : ¬ Subscribed receiver log) (htold : told receiver log = [])
    (hanswer : x.answer = .subscribed receiver) (hdelivered : x.delivered = [])
    (hplaces : x.places receiver = []) :
    Follows (log ++ [x]) receiver (delivered log).length := by
  have hsince : since receiver (log ++ [x]) = [] :=
    (since_append_of_not_subscribed hsubscribed hanswer).trans hdelivered
  refine ⟨subscribed_append.mpr (Or.inr hanswer), ?_, ?_, ?_⟩
  · rw [delivered_append_of_silent hdelivered]
  · rw [unread, hsince, List.drop_nil, delivered_append_of_silent hdelivered, List.drop_length]
  · rw [told_append_of_silent hplaces, htold]
    exact .nil

/-- An exchange that tells the receiver of its oldest unread events, if of any, moves it
behind them.  What the exchange sends becomes unread. -/
theorem step (h : Follows log receiver next)
    (htells : List.Forall₂ TellsOf (x.places receiver)
      ((unread receiver log).take (x.places receiver).length)) :
    Follows (log ++ [x]) receiver (next + (x.places receiver).length) := by
  have hunread := htells.length_eq
  have htold := h.told_tells.length_eq
  rw [List.length_take] at hunread htold
  have hsince : (unread receiver log).length =
      (since receiver log).length - (told receiver log).length := List.length_drop
  have hrest : (unread receiver log).length = (delivered log).length - next := by
    rw [h.unread_eq, List.length_drop]
  have hnext := h.next_le
  refine ⟨subscribed_append.mpr (Or.inl h.subscribed), ?_, ?_, ?_⟩
  · rw [delivered_append, List.length_append]
    omega
  · rw [unread, since_append_of_subscribed h.subscribed, told_append, delivered_append,
      List.length_append, List.drop_append_of_le_length (by omega),
      List.drop_append_of_le_length (by omega), ← List.drop_drop, ← List.drop_drop,
      ← h.unread_eq, unread]
  · rw [since_append_of_subscribed h.subscribed, told_append, List.length_append,
      List.take_append_of_le_length (by omega), List.take_add]
    exact tellsOf_append h.told_tells htells

theorem pass (h : Follows log receiver next) (hplaces : x.places receiver = []) :
    Follows (log ++ [x]) receiver next := by
  have hstep := h.step (x := x) (by rw [hplaces]; exact .nil)
  rwa [hplaces] at hstep

/-- A receiver that is answered what is due goes on behind it. -/
theorem reads (h : Follows log receiver next) (capacity : Nat) :
    let receipt := Receipt.due capacity (unread receiver log)
    Follows (log ++ [⟨.receive receiver, .received receipt⟩]) receiver
      (next + receipt.places.length) := by
  intro receipt
  have hplaces : Exchange.places receiver ⟨.receive receiver, .received receipt⟩ =
      receipt.places := if_pos rfl
  have htells := Receipt.due_tellsOf capacity (unread receiver log)
  rw [← hplaces] at htells ⊢
  exact h.step htells

end Follows

/-- A bus holds what the calls that have been made on it say. -/
structure Run.Faithful (capacity : Nat) (r : Run) : Prop where
  capacity_eq : r.now.bus.capacity = capacity
  sent_eq : r.now.bus.sent = (delivered r.log).length
  ring_eq : r.now.bus.ring = (retained r.log).reverse.take recentBound
  channel_eq : r.now.bus.channel = (delivered r.log).reverse.take capacity
  /-- what is in the ring has been sent or is being broadcast -/
  perm : (retained r.log).Perm (delivered r.log ++ r.now.underway)
  follows : ∀ receiver next, r.now.bus.receivers[receiver]? = some next →
    Follows r.log receiver next
  absent : ∀ receiver, r.now.bus.receivers.length ≤ receiver →
    ¬ Subscribed receiver r.log ∧ told receiver r.log = []

namespace Run.Faithful

variable {capacity : Nat} {r : Run}

theorem fresh (capacity : Nat) : (Run.fresh capacity).Faithful capacity where
  capacity_eq := rfl
  sent_eq := rfl
  ring_eq := rfl
  channel_eq := List.take_nil.symm
  perm := .refl []
  follows receiver next h := by cases h
  absent receiver _ := ⟨List.not_mem_nil, rfl⟩

theorem receive_of_some {index next : Nat} (h : r.Faithful capacity)
    (hnext : r.now.bus.receivers[index]? = some next) :
    r.now.bus.receive index =
      ({ r.now.bus with
          receivers := r.now.bus.receivers.set index
            (next + (Receipt.due capacity (unread index r.log)).places.length) },
        Receipt.due capacity (unread index r.log)) := by
  have hfollows := h.follows index next hnext
  have hread := read_eq h.sent_eq (h.channel_eq.trans (by rw [h.capacity_eq])) hfollows.next_le
  rw [← hfollows.unread_eq, h.capacity_eq] at hread
  rw [receive, hnext]
  dsimp only
  rw [hread]

/-- What a receiver is answered is due, also if there is no such receiver. -/
theorem receive_due (h : r.Faithful capacity) (index : Nat) :
    (r.now.bus.receive index).2 = Receipt.due capacity (unread index r.log) := by
  cases hnext : r.now.bus.receivers[index]? with
  | none =>
    have habsent := (h.absent index (List.getElem?_eq_none_iff.mp hnext)).1
    rw [receive, hnext, unread, since_of_not_subscribed habsent, List.drop_nil]
    rfl
  | some next => rw [h.receive_of_some hnext]

theorem absent_append {receiver : Nat} {x : Exchange} (h : r.Faithful capacity)
    (hreceiver : r.now.bus.receivers.length ≤ receiver) (hanswer : x.answer ≠ .subscribed receiver)
    (hplaces : x.places receiver = []) :
    ¬ Subscribed receiver (r.log ++ [x]) ∧ told receiver (r.log ++ [x]) = [] := by
  obtain ⟨hsubscribed, htold⟩ := h.absent receiver hreceiver
  refine ⟨?_, ?_⟩
  · rw [subscribed_append, not_or]
    exact ⟨hsubscribed, hanswer⟩
  · rw [told_append_of_silent hplaces, htold]

/-- A call that neither retains nor sends anything may only move receivers. -/
theorem silent {receivers : List Nat} {x : Exchange} (h : r.Faithful capacity)
    (hretained : x.retained = []) (hdelivered : x.delivered = [])
    (hfollows : ∀ receiver next, receivers[receiver]? = some next →
      Follows (r.log ++ [x]) receiver next)
    (habsent : ∀ receiver, receivers.length ≤ receiver →
      ¬ Subscribed receiver (r.log ++ [x]) ∧ told receiver (r.log ++ [x]) = []) :
    Faithful capacity ⟨{ r.now with bus := { r.now.bus with receivers } }, r.log ++ [x]⟩ := by
  have hring : retained (r.log ++ [x]) = retained r.log := retained_append_of_silent hretained
  have hchannel : delivered (r.log ++ [x]) = delivered r.log :=
    delivered_append_of_silent hdelivered
  refine ⟨h.capacity_eq, ?_, ?_, ?_, ?_, hfollows, habsent⟩
  · exact h.sent_eq.trans (by rw [hchannel])
  · exact h.ring_eq.trans (by rw [hring])
  · exact h.channel_eq.trans (by rw [hchannel])
  · rw [hring, hchannel]
    exact h.perm

theorem start (h : r.Faithful capacity) (e : RefreshEvent) :
    (r.next (.start e)).Faithful capacity := by
  have hring : retained (r.next (.start e)).log = retained r.log ++ [e] := retained_append r.log _
  have hchannel : delivered (r.next (.start e)).log = delivered r.log :=
    delivered_append_of_silent rfl
  refine ⟨h.capacity_eq, ?_, ?_, ?_, ?_, ?_, ?_⟩
  · exact h.sent_eq.trans (by rw [hchannel])
  · rw [hring, List.reverse_concat, ← take_cons_take, ← h.ring_eq]
    rfl
  · exact h.channel_eq.trans (by rw [hchannel])
  · rw [hring, hchannel]
    exact (h.perm.append_right [e]).trans (by rw [List.append_assoc]; exact .refl _)
  · intro receiver next hnext
    exact (h.follows receiver next hnext).pass rfl
  · intro receiver hreceiver
    exact h.absent_append hreceiver (by rintro ⟨⟩) rfl

/-- What is sent was under way. -/
theorem finish (h : r.Faithful capacity) (place : Nat) :
    (r.next (.finish place)).Faithful capacity := by
  unfold Run.next Traffic.perform
  dsimp only
  cases hsent : r.now.underway[place]? with
  | none =>
    exact h.silent rfl rfl
      (fun receiver next hnext => (h.follows receiver next hnext).pass rfl)
      (fun receiver hreceiver => h.absent_append hreceiver (by rintro ⟨⟩) rfl)
  | some e =>
    obtain ⟨hplace, he⟩ := List.getElem?_eq_some_iff.mp hsent
    let x : Exchange := ⟨.finish place, .finished (some e)⟩
    have hring : retained (r.log ++ [x]) = retained r.log := retained_append_of_silent rfl
    have hchannel : delivered (r.log ++ [x]) = delivered r.log ++ [e] := delivered_append r.log x
    refine ⟨h.capacity_eq, ?_, ?_, ?_, ?_, ?_, ?_⟩
    · rw [hchannel, List.length_append, ← h.sent_eq]
      rfl
    · exact h.ring_eq.trans (by rw [hring])
    · rw [hchannel, List.reverse_concat, ← take_cons_take, ← h.channel_eq, ← h.capacity_eq]
      rfl
    · have hout : (e :: r.now.underway.eraseIdx place).Perm r.now.underway :=
        he ▸ List.getElem_cons_eraseIdx_perm hplace
      rw [hring, hchannel, List.append_assoc]
      exact h.perm.trans (hout.symm.append_left _)
    · intro receiver next hnext
      exact (h.follows receiver next hnext).pass rfl
    · intro receiver hreceiver
      exact h.absent_append hreceiver (by rintro ⟨⟩) rfl

/-- A new receiver starts behind all events sent before. -/
theorem subscribe (h : r.Faithful capacity) : (r.next .subscribe).Faithful capacity := by
  refine h.silent rfl rfl ?_ ?_
  · intro receiver next hnext
    rw [List.getElem?_append] at hnext
    split at hnext
    · exact (h.follows receiver next hnext).pass rfl
    · -- Behind the receivers that there were stands one more.
      rename_i hnew
      obtain ⟨habsent, htold⟩ := h.absent receiver (Nat.le_of_not_lt hnew)
      have hreceiver : receiver = r.now.bus.receivers.length := by
        have hlt := (List.getElem?_eq_some_iff.mp hnext).1
        rw [List.length_singleton] at hlt
        omega
      subst hreceiver
      rw [Nat.sub_self] at hnext
      cases hnext
      rw [h.sent_eq]
      exact .start habsent htold rfl rfl rfl
  · intro receiver hreceiver
    rw [List.length_append, List.length_singleton] at hreceiver
    refine h.absent_append (by omega) ?_ rfl
    intro hanswer
    cases hanswer
    exact absurd hreceiver (Nat.not_succ_le_self _)

theorem receive (h : r.Faithful capacity) (index : Nat) :
    (r.next (.receive index)).Faithful capacity := by
  have hother {receiver : Nat} (receipt : Receipt) (hreceiver : index ≠ receiver) :
      Exchange.places receiver ⟨.receive index, .received receipt⟩ = [] := if_neg hreceiver
  unfold Run.next Traffic.perform
  dsimp only
  cases hcursor : r.now.bus.receivers[index]? with
  | none =>
    -- Nobody is told of anything, and the bus stays as it is.
    have hnothing (receiver : Nat) :
        Exchange.places receiver ⟨.receive index, .received .empty⟩ = [] := ite_self []
    have hreceive : r.now.bus.receive index = (r.now.bus, .empty) := by
      rw [EventBus.receive, hcursor]
    rw [hreceive]
    refine h.silent rfl rfl ?_ ?_
    · intro receiver next hnext
      exact (h.follows receiver next hnext).pass (hnothing receiver)
    · intro receiver hreceiver
      exact h.absent_append hreceiver (by rintro ⟨⟩) (hnothing receiver)
  | some cursor =>
    have hindex := (List.getElem?_eq_some_iff.mp hcursor).1
    rw [h.receive_of_some hcursor]
    refine h.silent rfl rfl ?_ ?_
    · intro receiver next hnext
      by_cases hreceiver : index = receiver
      · subst hreceiver
        rw [List.getElem?_set_self hindex] at hnext
        cases hnext
        exact (h.follows index cursor hcursor).reads capacity
      · rw [List.getElem?_set_ne hreceiver] at hnext
        exact (h.follows receiver next hnext).pass (hother _ hreceiver)
    · intro receiver hreceiver
      rw [List.length_set] at hreceiver
      exact h.absent_append hreceiver (by rintro ⟨⟩) (hother _ (by omega))

theorem next (h : r.Faithful capacity) (call : Call) : (r.next call).Faithful capacity := by
  cases call with
  | start e => exact h.start e
  | finish place => exact h.finish place
  | subscribe => exact h.subscribe
  | receive index => exact h.receive index
  | recent n =>
    exact h.silent rfl rfl (fun receiver next hnext => (h.follows receiver next hnext).pass rfl)
      (fun receiver hreceiver => h.absent_append hreceiver (by rintro ⟨⟩) rfl)

/-- The places of a receiver, whether it has subscribed or not. -/
theorem view_tells (h : r.Faithful capacity) (receiver : Nat) :
    List.Forall₂ TellsOf (view receiver r.log) (since receiver r.log) := by
  cases hnext : r.now.bus.receivers[receiver]? with
  | some next => exact (h.follows receiver next hnext).view_tells
  | none =>
    obtain ⟨habsent, htold⟩ := h.absent receiver (List.getElem?_eq_none_iff.mp hnext)
    rw [view, unread, htold, since_of_not_subscribed habsent]
    exact .nil

theorem after (h : r.Faithful capacity) (calls : List Call) :
    (r.after calls).Faithful capacity := by
  induction calls generalizing r with
  | nil => exact h
  | cons call rest ih => exact ih (h.next call)

end Run.Faithful

/-! ## One history -/

/-- The ring holds what has been sent, and behind it what is being broadcast. -/
def Run.Aligned (r : Run) : Prop := retained r.log = delivered r.log ++ r.now.underway

theorem Run.Aligned.next {r : Run} (h : r.Aligned) {call : Call}
    (hcall : ∀ place, call = .finish place → place = 0) : (r.next call).Aligned := by
  unfold Aligned Run.next at *
  rw [retained_append, delivered_append, h]
  cases call with
  | start e => simp [Traffic.perform, Exchange.retained, Exchange.delivered]
  | finish place =>
    obtain rfl := hcall place rfl
    cases hunderway : r.now.underway with
    | nil => simp [Traffic.perform, hunderway, Exchange.retained, Exchange.delivered]
    | cons e rest => simp [Traffic.perform, hunderway, Exchange.retained, Exchange.delivered]
  | subscribe => simp [Traffic.perform, Exchange.retained, Exchange.delivered]
  | receive index => simp [Traffic.perform, Exchange.retained, Exchange.delivered]
  | recent n => simp [Traffic.perform, Exchange.retained, Exchange.delivered]

/-- By induction on the calls: where no broadcast overtakes another there is one history. -/
theorem Run.Aligned.after {r : Run} (h : r.Aligned) {calls : List Call} (hcalls : InTurn calls) :
    (r.after calls).Aligned := by
  induction calls generalizing r with
  | nil => exact h
  | cons call rest ih =>
    have hfirst : (r.next call).Aligned :=
      h.next fun place hplace => hcalls place (hplace ▸ List.mem_cons_self)
    exact ih hfirst fun place hplace => hcalls place (List.mem_cons_of_mem _ hplace)

theorem rtake_of_suffix {es all : List RefreshEvent} {n : Nat} (h : es <:+ all)
    (hn : n ≤ es.length) : all.rtake n = es.rtake n := by
  obtain ⟨before, rfl⟩ := h
  have hlength : (before ++ es).length - n = before.length + (es.length - n) := by
    rw [List.length_append]
    omega
  rw [List.rtake, hlength, List.drop_length_add_append, List.rtake]

/-- Behind its last gap a receiver has all events. -/
theorem unbroken_suffix {receiver : Nat} {log : List Exchange}
    (h : List.Forall₂ TellsOf (view receiver log) (since receiver log)) :
    unbroken receiver log <:+ since receiver log := by
  obtain ⟨before, hbefore⟩ := List.rtakeWhile_suffix Option.isSome (view receiver log)
  have htells := List.forall₂_drop before.length h
  rw [← hbefore, List.drop_left] at htells
  have hfilled := eq_map_some_of_tellsOf htells fun place hplace =>
    List.mem_rtakeWhile_imp hplace
  have hunbroken : unbroken receiver log = (since receiver log).drop before.length := by
    rw [unbroken, hfilled]
    simp [List.reduceOption]
  rw [hunbroken]
  exact List.drop_suffix before.length (since receiver log)

/-- Of two lists one is the end of the other. -/
def AgreeAtEnd (es later : List RefreshEvent) : Prop := es <:+ later ∨ later <:+ es

instance (es later : List RefreshEvent) : Decidable (AgreeAtEnd es later) :=
  inferInstanceAs (Decidable (_ ∨ _))

theorem suffix_append_right {es all : List RefreshEvent} (h : es <:+ all)
    (more : List RefreshEvent) : es ++ more <:+ all ++ more := by
  obtain ⟨before, rfl⟩ := h
  exact ⟨before, (List.append_assoc _ _ _).symm⟩

theorem Run.Faithful.recent_eq {capacity : Nat} {r : Run} (h : r.Faithful capacity) (n : Nat) :
    r.now.bus.recent n =
      ((retained r.log).rtake (min n (min recentBound (retained r.log).length))).reverse := by
  rw [recent, h.ring_eq, List.take_take, List.rtake_eq_reverse_take_reverse,
    List.reverse_reverse, ← Nat.min_assoc, ← List.length_reverse, ← List.take_eq_take_min]

theorem Run.Faithful.ring_suffix {capacity : Nat} {r : Run} (h : r.Faithful capacity) (n : Nat) :
    (r.now.bus.recent n).reverse <:+ retained r.log := by
  rw [h.recent_eq, List.reverse_reverse]
  exact List.drop_suffix _ _

/-- After any calls on a new bus, whoever has subscribed, and also if broadcasts overlap:

* asked for the last `n` events, the bus answers with the last ones put into the ring, newest
  first, as many as are asked for, as the ring keeps and as there have been;
* these have all been sent but for those that are being broadcast, though in another order;
* who subscribes becomes a receiver of its own;
* a receiver that reads is told how many of its unread events exceed the capacity, which gives
  up the oldest ones, and gets the oldest one if none do;
* what it has read stands in the order of the events sent since it subscribed, each once,
  with a gap for each one given up, and its unread events are the rest of them.

Where no broadcast overtakes another, what has been put into the ring is what has been sent and
then what is being broadcast, in order.  The ring, oldest first, and what a receiver has read and
not read, with what is being broadcast behind it, agree place by place from the newest event
back, as far as both go, and as lists behind the receiver's last gap. -/
theorem ring_and_receivers_agree (capacity : Nat) (calls : List Call) :
    let run := (Run.fresh capacity).after calls
    let all := retained run.log
    let underway := run.now.underway
    (∀ n, (run.now.perform (.recent n)).2 =
      .recalled (all.rtake (min n (min recentBound all.length))).reverse) ∧
      all.Perm (delivered run.log ++ underway) ∧
      (∃ receiver, (run.now.perform .subscribe).2 = .subscribed receiver ∧
        ¬ Subscribed receiver run.log) ∧
      (∀ receiver,
        (run.now.perform (.receive receiver)).2 =
          .received (Receipt.due capacity (unread receiver run.log)) ∧
        List.Forall₂ TellsOf (view receiver run.log) (since receiver run.log)) ∧
      (InTurn calls →
        all = delivered run.log ++ underway ∧
        ∀ receiver n,
          let seen := view receiver run.log ++ underway.map some
          let ring := (run.now.bus.recent n).reverse
          let common := min seen.length ring.length
          List.Forall₂ TellsOf (seen.rtake common) (ring.rtake common) ∧
            AgreeAtEnd (unbroken receiver run.log ++ underway) ring) := by
  intro run all underway
  have h : run.Faithful capacity := (Run.Faithful.fresh capacity).after calls
  refine ⟨fun n => ?_, h.perm, ⟨run.now.bus.receivers.length, rfl, (h.absent _ le_rfl).1⟩,
    fun receiver => ⟨?_, h.view_tells receiver⟩, fun hcalls => ?_⟩
  · rw [Traffic.perform, h.recent_eq]
  · rw [Traffic.perform, h.receive_due]
  · have haligned : all = delivered run.log ++ underway :=
      Run.Aligned.after (r := Run.fresh capacity) rfl hcalls
    refine ⟨haligned, fun receiver n => ?_⟩
    have hring : (run.now.bus.recent n).reverse <:+ delivered run.log ++ underway :=
      haligned ▸ h.ring_suffix n
    have hview := h.view_tells receiver
    have hsince : since receiver run.log ++ underway <:+ delivered run.log ++ underway :=
      suffix_append_right (since_suffix receiver run.log) underway
    have hseen := tellsOf_append hview (tellsOf_map_some underway)
    refine ⟨?_, ?_⟩
    · -- Both are cut from the same events, at the end.
      rw [← rtake_of_suffix hring (min_le_right _ _), rtake_of_suffix hsince]
      · exact tellsOf_rtake hseen _
      · rw [← hseen.length_eq]
        exact min_le_left _ _
    · have hbehind := (suffix_append_right (unbroken_suffix hview) underway).trans hsince
      exact List.suffix_or_suffix_of_suffix hbehind hring

/-- A receiver falls behind, and misses an event that the ring still has. -/
def fallenBehind (a b c d : RefreshEvent) : List Call :=
  [.subscribe, .start a, .finish 0, .receive 0, .start b, .finish 0, .start c, .finish 0,
    .start d, .finish 0, .receive 0]

example (a b c d : RefreshEvent) :
    let run := (Run.fresh 2).after (fallenBehind a b c d)
    view 0 run.log = [some a, none, some c, some d] ∧ unbroken 0 run.log = [c, d] ∧
      run.now.bus.recent 9 = [d, c, b, a] := by
  cbv

/-- A broadcast starts behind another and is finished before it. -/
def overtaken (a b : RefreshEvent) : List Call :=
  [.subscribe, .start a, .start b, .finish 1, .finish 0]

/-- With all broadcasts finished, what a receiver has read and not read may still disagree with
the ring: because one broadcast overtook another, and because of a gap. -/
theorem histories_may_differ :
    let event (n : Nat) : RefreshEvent := .progressed .zero (.ofInt n)
    let overlapped := (Run.fresh 2).after (overtaken (event 1) (event 2))
    let lagged := (Run.fresh 2).after (fallenBehind (event 1) (event 2) (event 3) (event 4))
    overlapped.now.underway = [] ∧
      ¬ AgreeAtEnd (view 0 overlapped.log).reduceOption (overlapped.now.bus.recent 2).reverse ∧
      lagged.now.underway = [] ∧
      ¬ AgreeAtEnd (view 0 lagged.log).reduceOption (lagged.now.bus.recent 4).reverse := by
  decide

end EventBus

end MediaRefresh
