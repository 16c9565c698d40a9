/-!
# Why a connection is refused
-/

namespace EventRelay

/-- Reasons for not accepting a connection. -/
inductive Refusal where
  /-- The connection cannot flush partial writes. -/
  | streamingUnsupported
  /-- The random source failed while a session id was drawn, for the reason
  given if it gave one. -/
  | entropy (cause : Option String)
  /-- The broker has been stopped, or has failed. -/
  | shutDown
  deriving Repr, DecidableEq

namespace Refusal

def message : Refusal → String
  | .streamingUnsupported => "SSE Error: transport does not support streaming responses"
  | .entropy _ => "SSE Error: failed to generate a session id"
  | .shutDown => "SSE Error: broker is shut down"

/-- The error underneath this one. -/
def cause? : Refusal → Option String
  | .entropy cause => cause
  | _ => none

end Refusal

end EventRelay
