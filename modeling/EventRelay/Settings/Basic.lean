import EventRelay.Hub

/-!
# The relay's settings

What can be set from outside, with the defaults, and the settings of the
registry and the broker that follow from it.
-/

namespace EventRelay

/-- Where the relay runs. -/
inductive Environment where
  | development | production | staging
  deriving Repr, DecidableEq

namespace Environment

def name : Environment → String
  | .development => "development"
  | .production => "production"
  | .staging => "staging"

/-- The environment of a name in letters of either case. Lower-casing letters
outside ASCII never gives a letter of a name, so those letters do not matter. -/
def ofName? (s : String) : Option Environment :=
  match String.ofList (s.toList.map Char.toLower) with
  | "development" => some .development
  | "production" => some .production
  | "staging" => some .staging
  | _ => none

end Environment

/-- Everything that can be set from outside. Spans are in seconds unless said
otherwise. -/
structure Settings where
  /-- Origins whose pages may read answers. -/
  allowedOrigins : List String := ["http://localhost:3000", "https://localhost:3000"]
  interface : String := "127.0.0.1"
  port : Nat := 4000
  verbosity : Verbosity := some .info
  environment : Environment := .development
  /-- Events kept for a disconnected session. -/
  bufferCapacity : Nat := 100
  /-- How long a disconnected session is kept. -/
  sessionTtl : Nat := 300
  sweepInterval : Nat := 60
  heartbeatInterval : Nat := 25
  /-- Room in a client's queue. -/
  clientQueue : Nat := 64
  /-- Room in the queue of messages that producers hand in. -/
  intake : Nat := 1024
  /-- How long a client's queue may stay full. -/
  slowClientTimeout : Nat := 5
  /-- The delay before reconnecting that clients are told, in milliseconds. -/
  retry : Nat := 3000
  cookieName : String := "sse_session"
  /-- How long browsers keep the session cookie, if sessions are not kept longer. -/
  cookieLifetime : Nat := 86400
  /-- Only the user agent that created a session may reclaim it. -/
  strictBinding : Bool := false
  deriving Repr, DecidableEq

namespace Settings

def isProduction (s : Settings) : Bool := s.environment == .production

/-- How long browsers are told to keep the session cookie. It is handed out when a
connection opens and used when the next one does, so it may not be kept for less
time than the session. -/
def cookieMaxAge (s : Settings) : Nat := max s.cookieLifetime s.sessionTtl

def registry (s : Settings) : Registry.Config :=
  { bufferCapacity := s.bufferCapacity
    ttl := Duration.ofSeconds s.sessionTtl
    sweepInterval := Duration.ofSeconds s.sweepInterval
    strictBinding := s.strictBinding }

def broker (s : Settings) : Broker.Config :=
  { queueCapacity := s.clientQueue
    intakeCapacity := s.intake
    heartbeat := Duration.ofSeconds s.heartbeatInterval
    patience := Duration.ofSeconds s.slowClientTimeout }

/-- The address the server listens on. -/
def address (s : Settings) : String := s!"{s.interface}:{s.port}"

end Settings

end EventRelay
