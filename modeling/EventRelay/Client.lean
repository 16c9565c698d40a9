import EventRelay.Event
import EventRelay.Table

/-!
# Live clients

Each live client reads from a bounded queue that the broker writes to. The
broker never waits for a reader: an event offered to a full queue is dropped
for that client, and a client that leaves its queue full for too long is
disconnected. The stall clock of a `Slot` starts with the event that fills the
queue.
-/

namespace EventRelay

/-- The events on their way to one client. -/
structure Channel where
  capacity : Nat
  queue : List Event := []
  /-- The reading end still exists. -/
  attended : Bool := true
  deriving Repr, DecidableEq

def Channel.isFull (c : Channel) : Bool := decide (c.capacity ≤ c.queue.length)

/-- What became of an event offered to a client. -/
inductive Delivery where
  | delivered
  /-- The queue is full; the event is dropped for this client. -/
  | dropped
  /-- The queue has been full for too long. -/
  | unresponsive
  /-- Nobody reads the queue any more. -/
  | gone
  deriving Repr, DecidableEq

/-- Outcomes after which the client is disconnected. -/
def Delivery.isFatal : Delivery → Bool
  | .unresponsive | .gone => true
  | .delivered | .dropped => false

/-- Outcomes of an offer that met a full queue. -/
def Delivery.metFullQueue : Delivery → Bool
  | .unresponsive | .dropped => true
  | .delivered | .gone => false

/-- The broker's side of one live client. -/
structure Slot where
  client : ClientId
  channel : Channel
  /-- When the queue last became full, unless it was seen to have room since. -/
  stalledSince : Option Nat := none
  deriving Repr, DecidableEq

namespace Slot

/-- The slot with its stall clock running, from `now` if it was not. -/
def stall (s : Slot) (now : Nat) : Slot := { s with stalledSince := some (s.stalledSince.getD now) }

/-- Whether the stall clock of a full queue has run for `patience`. -/
def stalledFor (s : Slot) (patience now : Nat) : Bool :=
  decide (patience ≤ now - s.stalledSince.getD now)

/-- Offers an event to the client. -/
def offer (s : Slot) (e : Event) (patience now : Nat) : Slot × Delivery :=
  if !s.channel.attended then (s, .gone)
  else if s.channel.isFull then
    (s.stall now, if s.stalledFor patience now then .unresponsive else .dropped)
  else
    let channel := { s.channel with queue := s.channel.queue ++ [e] }
    ({ s with channel, stalledSince := if channel.isFull then some now else none }, .delivered)

/-- Looks at a client that may not have been offered anything lately, and says
whether it has to be disconnected. A queue with room stops the stall clock. -/
def check (s : Slot) (patience now : Nat) : Slot × Bool :=
  if !s.channel.attended then (s, true)
  else if s.channel.isFull then (s.stall now, s.stalledFor patience now)
  else ({ s with stalledSince := none }, false)

/-- When the client counts as unresponsive if it reads nothing until then. -/
def deadline (s : Slot) (patience : Nat) : Option Nat := s.stalledSince.map (· + patience)

end Slot

/-- A client's handle on its connection. -/
structure Client where
  id : ClientId
  session : SessionId
  /-- The session was reclaimed, not created. -/
  reconnected : Bool
  /-- How many events of the session's buffer come before live ones. -/
  replayed : Nat
  deriving Repr, DecidableEq

/-- What a client gets when it reads without waiting. -/
inductive Reading where
  | event (e : Event)
  /-- Nothing is there now. -/
  | pending
  /-- Nothing will come any more. -/
  | closed
  deriving Repr, DecidableEq

end EventRelay
