import EventRelay.Clock
import EventRelay.Event
import EventRelay.Fault
import EventRelay.Ring

/-!
# Sessions

A session outlives the connections of its client. While no connection holds it
(it is inactive) it keeps the events its client misses, in a ring, and expires
once it has been inactive for longer than the time to live.

Coming back replays the kept events. They stay in the buffer until a later
connection acknowledges them by the id of the last event its client saw:
`unacknowledged` counts the entries at the oldest end that some replay has
handed out already.
-/

namespace EventRelay

/-- What is known of the connection that created a session. -/
structure Metadata where
  userAgent : Option String := none
  remoteAddress : Option String := none
  subscriptions : List String := []
  deriving Repr, DecidableEq

/-- A client's place in the relay, kept across its connections. -/
structure Session where
  /-- A live connection holds the session. -/
  active : Bool
  /-- When a connection last took or left the session. -/
  lastSeen : Nat
  /-- How often a client has come back. The counter has 32 bits. -/
  reconnects : UInt32
  buffer : Ring Event
  /-- How many of the oldest buffered events a replay has handed out. -/
  unacknowledged : Nat
  metadata : Metadata
  deriving Repr, DecidableEq

namespace Session

/-- The session of a client that connects for the first time. -/
def fresh (capacity : Nat) (metadata : Metadata) (now : Nat) : Session :=
  { active := true, lastSeen := now, reconnects := 0, buffer := Ring.empty capacity,
    unacknowledged := 0, metadata }

/-- Inactive for longer than `ttl`. -/
def expired (s : Session) (ttl : Nat) (now : Nat) : Bool :=
  !s.active && decide (ttl < now - s.lastSeen)

/-- Keeps an event the client misses, and hands back the event it displaces. -/
def miss (s : Session) (e : Event) : Session × Option Event :=
  let (buffer, evicted) := s.buffer.push e
  ({ s with
      buffer
      unacknowledged := if evicted.isSome then s.unacknowledged - 1 else s.unacknowledged },
    evicted)

/-- How many of the oldest buffered events a client has seen whose last event
has the given id. An id in the buffer covers the events up to it. Any other id
was delivered live after the previous replay, and covers that replay. No id, or
an empty one, covers nothing. -/
def acknowledgedBy (s : Session) (last : Option EventId) : Nat :=
  match last.filter (· != "") with
  | none => 0
  | some id =>
    match s.buffer.toList.findIdx? (·.id == id) with
    | some position => position + 1
    | none => s.unacknowledged

/-- Drops what the client has seen; the rest is about to be handed out. -/
def acknowledge (s : Session) (last : Option EventId) : Session :=
  let buffer := s.buffer.discard (s.acknowledgedBy last)
  { s with buffer, unacknowledged := buffer.length }

/-- The buffered events as a returning client gets them. -/
def replay (s : Session) : List Event := s.buffer.toList.map Event.asReplay

/-- The counter has no room for one more return. -/
def countFull (s : Session) : Bool := s.reconnects.toNat == Limits.maxCount

/-- The session in the hands of a returning client. If the counter has no room for one more
return, the loop ends before it comes to this (`Broker.accept`). -/
def reclaim (s : Session) (last : Option EventId) (now : Nat) : Session :=
  { s with active := true, reconnects := s.reconnects + 1, lastSeen := now }.acknowledge last

/-- The session after its connection has ended; its retention starts now. -/
def disconnect (s : Session) (now : Nat) : Session :=
  { s with active := false, lastSeen := now }

end Session

end EventRelay
