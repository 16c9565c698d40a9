import EventRelay.Identity
import EventRelay.Text.Utf8
import EventRelay.Text.Json

/-!
# Events and messages

An `Event` is one unit of pushed data. A `Message` is an event with its
audience, as a producer hands it to the broker.

The relay makes two kinds of events of its own, heartbeats and the `connected`
greeting; they carry no application data and are called control events.
-/

namespace EventRelay

/-- One unit of pushed data. -/
structure Event where
  id : EventId
  type : String
  payload : Bytes
  /-- Sent from a session's buffer, not as it happened. -/
  replayed : Bool := false
  deriving Repr, DecidableEq

namespace Event

def heartbeatType : String := "heartbeat"

def connectedType : String := "connected"

/-- The tick that keeps idle connections open. -/
def heartbeat (id : EventId) : Event :=
  { id, type := heartbeatType, payload := Utf8.encode "\x7b\x7d" }

/-- The greeting written first on every accepted connection. -/
def connected (id : EventId) (session : SessionId) (reconnected : Bool) (replayed : Nat) : Event :=
  let details := Json.obj
    [("session_id", .str session), ("reconnected", .bool reconnected), ("replayed", .int replayed)]
  { id, type := connectedType, payload := Utf8.encode details.compact }

/-- The event as part of a replay. -/
def asReplay (e : Event) : Event := { e with replayed := true }

def isHeartbeat (e : Event) : Bool := e.type == heartbeatType

/-- Events made by the relay itself. -/
def isControl (e : Event) : Bool := e.isHeartbeat || e.type == connectedType

/-- Events are told apart by their ids alone. -/
def same (a b : Event) : Bool := a.id == b.id

/-- The payload as text. -/
def text (e : Event) : String := Utf8.decode e.payload

end Event

/-- Who an event is for. -/
inductive Scope where
  /-- Every live client, and every disconnected session's buffer. -/
  | everyone
  /-- Live clients only; nothing is buffered. -/
  | live
  /-- The named sessions, live or disconnected. -/
  | sessions (ids : List SessionId)
  deriving Repr, DecidableEq

/-- An event on its way to its audience. -/
structure Message where
  event : Event
  scope : Scope
  deriving Repr, DecidableEq

end EventRelay
