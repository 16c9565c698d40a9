import EventRelay.CommandLine
import EventRelay.Settings.Basic
import EventRelay.Text.Integer
import EventRelay.Text.Split

/-!
# The relay's command line

The options that change the settings, in the order in which the environment is
asked about them.
-/

namespace EventRelay.Settings

open CommandLine (Flag ValueFault)

/-- The program as its command line knows it. -/
def program : CommandLine.Program := { name := "pushline", version := "service 0.1.0" }

/-! ## Kinds of values -/

/-- The last value given. -/
def single (read : String → Except ValueFault Settings) (values : List String) :
    Except ValueFault Settings := read (values.getLastD "")

/-- One of a few values. -/
def choice {α : Type} (choices : List (String × α)) (value : String) : Except ValueFault α :=
  match choices.lookup value with
  | some a => .ok a
  | none => .error (if value = "" then .missing else .notAChoice)

/-- A number that fits a machine word. -/
def number (value : String) : Except ValueFault Nat :=
  (Text.readNat Limits.maxWord value).mapError fun f => .unreadable f.message

/-- The number of a port. -/
def portNumber (value : String) : Except ValueFault Nat :=
  match Text.readInt (1 <<< 63) ((1 <<< 63) - 1) value with
  | .error f => .error (.unreadable f.message)
  | .ok n =>
    if 0 ≤ n ∧ n ≤ 65535 then .ok n.toNat
    else .error (.unreadable s!"{n} is not in 0..=65535")

def levels : List (String × Verbosity) :=
  [none, some .error, some .warn, some .info, some .debug, some .trace].map fun v => (v.name, v)

/-- Environments are named all in small letters or all in capitals. -/
def environments : List (String × Environment) :=
  [("DEVELOPMENT", .development), ("PRODUCTION", .production), ("STAGING", .staging),
    ("development", .development), ("production", .production), ("staging", .staging)]

def truthValues : List (String × Bool) := [("true", true), ("false", false)]

/-! ## The options -/

/-- A name in capitals with underscores, as values and variables are called. -/
def shout (long : String) : String :=
  String.ofList (long.toList.map fun c => if c = '-' then '_' else c.toUpper)

/-- An option with a value of some kind. -/
def option {α : Type} (long : String) (short : Option Char) (kind : String → Except ValueFault α)
    (set : Settings → α → Settings) : Flag Settings :=
  { long, short, value := some (shout long), env := shout long
    apply := fun values s => single (fun value => (kind value).map (set s)) values }

def options : List (Flag Settings) :=
  [ { long := "allowed-origins", value := some "ALLOWED_ORIGINS", env := "ALLOWED_ORIGINS"
      repeatable := true
      apply := fun values s =>
        .ok { s with allowedOrigins := values.flatMap fun value => Text.split ',' value } },
    option "interface" (some 'i') .ok (fun s v => { s with interface := v }),
    option "port" (some 'p') portNumber (fun s v => { s with port := v }),
    option "log-level-filter" (some 'l') (choice levels) (fun s v => { s with verbosity := v }),
    option "runtime-env" (some 'r') (choice environments) (fun s v => { s with environment := v }),
    option "sse-buffer-capacity" none number (fun s v => { s with bufferCapacity := v }),
    option "sse-session-ttl-secs" none number (fun s v => { s with sessionTtl := v }),
    option "sse-sweep-interval-secs" none number (fun s v => { s with sweepInterval := v }),
    option "sse-heartbeat-interval-secs" none number
      (fun s v => { s with heartbeatInterval := v }),
    option "sse-client-channel-capacity" none number (fun s v => { s with clientQueue := v }),
    option "sse-broadcast-channel-capacity" none number (fun s v => { s with intake := v }),
    option "sse-slow-consumer-timeout-secs" none number
      (fun s v => { s with slowClientTimeout := v }),
    option "sse-retry-ms" none number (fun s v => { s with retry := v }),
    option "sse-cookie-name" none .ok (fun s v => { s with cookieName := v }),
    option "sse-cookie-max-age-secs" none number (fun s v => { s with cookieLifetime := v }),
    { long := "sse-strict-session-binding", env := "SSE_STRICT_SESSION_BINDING"
      apply := fun values s =>
        single (fun value => (choice truthValues value).map fun v => { s with strictBinding := v })
          values } ]

/-- The settings that arguments and environment ask for. -/
def read (env : String → Option String) (arguments : List String) :
    Except CommandLine.Outcome Settings :=
  CommandLine.read options env {} arguments

end EventRelay.Settings
