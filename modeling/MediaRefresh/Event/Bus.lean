import MediaRefresh.Event.Basic

/-!
# Events: the bus

Every event goes to a ring of the last hundred and into a live channel that keeps
the last `capacity` ones.  A receiver reads the channel from the moment it
subscribed; when it has fallen behind further than the channel keeps, it is told
once how many events it missed and goes on with the oldest kept one.
-/

set_option autoImplicit false

namespace MediaRefresh

/-- The number of recent events that are retained. -/
def recentBound : Nat := 100

/-- The capacity of a channel when none is asked for. -/
def standardCapacity : Nat := 256

/-- A bus of events. -/
structure EventBus where
  /-- how many events the channel keeps -/
  capacity : Nat
  /-- how many events have been broadcast -/
  sent : Nat
  /-- the ring, newest first -/
  ring : List RefreshEvent
  /-- what the channel keeps, newest first -/
  channel : List RefreshEvent
  /-- the number of the next event that each receiver reads -/
  receivers : List Nat
  deriving Repr, Inhabited

/-- What a receiver is answered. -/
inductive Receipt where
  /-- no event is left -/
  | empty
  /-- so many events were missed -/
  | lagged (missed : Nat)
  /-- the next event -/
  | event (e : RefreshEvent)
  deriving DecidableEq, Repr

namespace EventBus

/-- A bus whose channel keeps `capacity` events. -/
def ofCapacity (capacity : Nat) : EventBus := ⟨capacity, 0, [], [], []⟩

/-- Puts an event into the ring. -/
def retain (bus : EventBus) (e : RefreshEvent) : EventBus :=
  { bus with ring := (e :: bus.ring).take recentBound }

/-- Sends an event into the channel. -/
def send (bus : EventBus) (e : RefreshEvent) : EventBus :=
  { bus with
    sent := bus.sent + 1
    channel := (e :: bus.channel).take bus.capacity }

/-- Broadcasts an event while nobody else does.  The ring is free again before the event is
sent, so a broadcast is two steps, between which those of others may come; all other calls on
a bus are one step each. -/
def broadcast (bus : EventBus) (e : RefreshEvent) : EventBus := (bus.retain e).send e

/-- Adds a receiver, whose index is the number of receivers before it. -/
def subscribe (bus : EventBus) : EventBus × Nat :=
  ({ bus with receivers := bus.receivers ++ [bus.sent] }, bus.receivers.length)

/-- The last `n` events, newest first, as far as the ring goes. -/
def recent (bus : EventBus) (n : Nat) : List RefreshEvent := bus.ring.take n

/-- The number of the oldest event that the channel keeps. -/
def oldest (bus : EventBus) : Nat := bus.sent - bus.capacity

/-- What a receiver at `next` is answered, and where it stands then. -/
def read (bus : EventBus) (next : Nat) : Receipt × Nat :=
  if next < bus.oldest then (.lagged (bus.oldest - next), bus.oldest)
  else match bus.channel[bus.sent - 1 - next]? with
    | some e => if next < bus.sent then (.event e, next + 1) else (.empty, next)
    | none => (.empty, next)

/-- Lets a receiver read. -/
def receive (bus : EventBus) (index : Nat) : EventBus × Receipt :=
  match bus.receivers[index]? with
  | none => (bus, .empty)
  | some next =>
    let (receipt, next) := bus.read next
    ({ bus with receivers := bus.receivers.set index next }, receipt)

end EventBus

end MediaRefresh
