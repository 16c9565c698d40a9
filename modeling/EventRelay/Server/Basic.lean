import EventRelay.App.Routes
import EventRelay.Server.Cors

/-!
# The server

The server takes the address of the settings, works out which origins it allows,
and serves until it is interrupted. It fails if it cannot have the address; and a
wildcard among the origins ends it after it has taken the address.
-/

namespace EventRelay

/-- Why the server does not serve. -/
inductive ServerFault where
  /-- Somebody else has the address. -/
  | addressInUse
  /-- The address cannot be taken, for the reason given. -/
  | addressRefused (reason : String)
  /-- There is a wildcard in the list of origins. -/
  | wildcard
  deriving Repr, DecidableEq

def ServerFault.message : ServerFault → String
  | .addressInUse => "Address already in use (os error 98)"
  | .addressRefused reason => reason
  | .wildcard => OriginPolicy.wildcardMessage

namespace App

/-- Starts serving, unless there was a fault in taking the address. -/
def serve (a : App) (fault : Option ServerFault) : App × Except ServerFault OriginPolicy :=
  match fault with
  | some fault => (a, .error fault)
  | none =>
    let texts := a.settings.allowedOrigins
    let a := (OriginPolicy.notices texts).foldl note (a.note (.listening a.settings.address))
    match OriginPolicy.ofTexts? texts with
    | none => (a, .error .wildcard)
    | some policy => (a, .ok policy)

/-- Answers a request as a server does that browsers talk to. Any request with the
method OPTIONS is a question about what pages may send. -/
def answer (a : App) (p : OriginPolicy) (r : Http.Request) (draws : List Draw) : App × Response :=
  if r.method = "OPTIONS" then
    (a, { status := 200, headers := p.fields r.headers true, body := .text "" })
  else
    let (a, response) := a.handle r draws
    (a, response.withFields (p.fields r.headers false))

/-- Lets time pass up to a moment. -/
def advance (a : App) (now : Nat) : App :=
  { a with broker := a.broker.sleep (now - a.broker.now) }

/-- Closes every stream because the process is interrupted, so that the server can
come to its end. -/
def interrupt (a : App) : App :=
  let a := a.note .shutdownRequested
  { a with broker := a.broker.stop }

end App

end EventRelay
