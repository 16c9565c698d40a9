import EventRelay.Event
import EventRelay.Text.Hex

/-!
# Notifications

What producers publish, without knowing how or whether it reaches a client. A
`Publisher` hands each notification to its handlers in the order in which they
were added. A notification's body is ready to send, or names a fragment that a
`Renderer` makes from data.
-/

namespace EventRelay

/-- The body of a notification. -/
inductive Payload where
  /-- Bytes that are sent as they are. -/
  | raw (bytes : Bytes)
  /-- A named fragment to make from data. -/
  | fragment (template : String) (data : Json)
  deriving Repr

/-- Something a producer wants pushed to clients. -/
structure Notification where
  type : String
  /-- The producer's own id for the event. -/
  id : Option EventId := none
  payload : Payload
  /-- The sessions it is for; `none` is everyone. -/
  sessions : Option (List SessionId) := none
  deriving Repr

/-- Makes the bytes of a named fragment from data, or says why it cannot. -/
abbrev Renderer := String → Json → Except String Bytes

/-- Handlers of notifications, which change a state of some kind. -/
structure Publisher (σ : Type) where
  handlers : List (Notification → σ → σ) := []

namespace Publisher

variable {σ : Type}

/-- The publisher with one more handler, called after the others. -/
def withHandler (p : Publisher σ) (handler : Notification → σ → σ) : Publisher σ :=
  ⟨p.handlers ++ [handler]⟩

/-- Hands a notification to every handler in turn. -/
def publish (p : Publisher σ) (n : Notification) (s : σ) : σ :=
  p.handlers.foldl (fun s handler => handler n s) s

end Publisher

/-- The fragments the relay can make by itself: a greeting, data as JSON text, and
bytes given by their hexadecimal digits. -/
def Renderer.builtin : Renderer := fun template data =>
  if template = "greeting" then
    let name := ((data.member? "name").bind Json.string?).getD "?"
    .ok (Utf8.encode s!"<p>Hello {name}</p>")
  else if template = "json" then .ok (Utf8.encode data.compact)
  else if template = "hex" then (Hex.decode (data.string?.getD "")).mapError Hex.Fault.message
  else .error s!"unknown template {template}"

end EventRelay
