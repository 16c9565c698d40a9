import EventRelay.Broker.Basic
import EventRelay.Notification

/-!
# Forwarding notifications to the broker

The handler that turns notifications into messages. A notification whose body
cannot be made, or that names no session, is dropped.
-/

namespace EventRelay.Broker

/-- The bytes of a notification's body, or the notice of why there are none. -/
def resolve (renderer : Option Renderer) (type : String) : Payload → Except Notice Bytes
  | .raw bytes => .ok bytes
  | .fragment template data =>
    match renderer with
    | none => .error (.noRenderer type template)
    | some render =>
      match render template data with
      | .ok bytes => .ok bytes
      | .error reason => .error (.renderFailed type template reason)

/-- Sends a notification as a message, under the producer's id or a fresh one. -/
def forward (renderer : Option Renderer) (n : Notification) (b : Broker) : Broker :=
  if n.sessions.any List.isEmpty then b
  else
    match resolve renderer n.type n.payload with
    | .error notice => b.note notice
    | .ok payload =>
      let (notice, scope) :=
        match n.sessions with
        | none => (Notice.forwardingToAll n.type, Scope.everyone)
        | some ids => (Notice.forwardingTo n.type ids.length, Scope.sessions ids)
      let b := b.note notice
      match n.id with
      | none => b.sendNew n.type payload scope
      | some id => b.send { event := { id, type := n.type, payload }, scope }

end EventRelay.Broker
