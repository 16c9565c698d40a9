import EventRelay.Fault
import EventRelay.Notice
import EventRelay.Session
import EventRelay.Table

/-!
# The session registry

All sessions, live or retained, with the clock they expire by. An expired
session is removed when somebody looks it up, or by a sweep, which a background
timer runs once a period.

Operations take the registry and give it back. What they report is put in front
of the `journal`.
-/

namespace EventRelay

/-- Settings of a registry. -/
structure Registry.Config where
  /-- Events kept for a disconnected session. -/
  bufferCapacity : Nat := 100
  /-- How long a disconnected session is kept. -/
  ttl : Nat := 300000
  /-- Time between background sweeps. -/
  sweepInterval : Nat := 60000
  /-- Only the user agent that created a session may reclaim it. -/
  strictBinding : Bool := false
  deriving Repr, DecidableEq

/-- All known sessions. -/
structure Registry where
  config : Registry.Config
  now : Nat := 0
  sessions : Table Session := []
  /-- The timer of the background sweep, while there is one. -/
  sweeper : Option Ticker := none
  /-- What was reported, the latest first. -/
  journal : List Notice := []
  deriving Repr, DecidableEq

/-- What the random source answers when asked for a session id: an id, or why it
has none. -/
abbrev Draw := Except String SessionId

/-- Why a session was not created. -/
inductive Obstacle where
  | refusal (r : Refusal)
  | fault (f : Fault)
  deriving Repr, DecidableEq

namespace Registry

def note (r : Registry) (n : Notice) : Registry := { r with journal := n :: r.journal }

/-- A registry with a background sweep, its first one a period from now. -/
def start (config : Config) (now : Nat) : Registry :=
  { config, now, sweeper := some (Ticker.start config.sweepInterval now) }

/-! ## Looking -/

def find? (r : Registry) (id : SessionId) : Option Session := Table.get? r.sessions id

def size (r : Registry) : Nat := r.sessions.length

/-- How many sessions no connection holds. -/
def disconnected (r : Registry) : Nat := r.sessions.countP fun entry => !entry.2.active

def isExpired (r : Registry) (s : Session) : Bool := s.expired r.config.ttl r.now

/-- The session, unless it is unknown or expired. An expired one is removed. -/
def lookup (r : Registry) (id : SessionId) : Registry × Option Session :=
  match r.find? id with
  | none => (r, none)
  | some s =>
    if r.isExpired s then
      ({ r with sessions := Table.erase r.sessions id }.note (.sessionEvicted id), none)
    else (r, some s)

/-- Whether a new connection may claim the session: it is known, nobody holds it,
it has not expired and, with strict binding, the user agent is its creator's. -/
def claimable (r : Registry) (id : SessionId) (claimant : Metadata) : Bool :=
  match r.find? id with
  | none => false
  | some s =>
    !s.active && !r.isExpired s
      && (!r.config.strictBinding || s.metadata.userAgent == claimant.userAgent)

/-! ## Changing -/

def put (r : Registry) (id : SessionId) (s : Session) : Registry :=
  { r with sessions := Table.put id s r.sessions }

/-- Creates an active session under the first id drawn that is not taken. -/
def create (r : Registry) (metadata : Metadata) : List Draw → Registry × Except Obstacle SessionId
  | [] =>
    let refusal := Refusal.entropy none
    (r.note (.entropyFailed refusal), .error (.refusal refusal))
  | .error reason :: _ =>
    let refusal := Refusal.entropy (some reason)
    (r.note (.entropyFailed refusal), .error (.refusal refusal))
  | .ok id :: rest =>
    if (r.find? id).isSome then (r.note .sessionIdTaken).create metadata rest
    else
      match Limits.bufferFault? r.config.bufferCapacity with
      | some fault => (r, .error (.fault fault))
      | none =>
        let session := Session.fresh r.config.bufferCapacity metadata r.now
        ((r.put id session).note (.sessionCreated id), .ok id)

/-- Marks the session as held. -/
def hold (r : Registry) (id : SessionId) : Registry :=
  match r.find? id with
  | none => r
  | some s => r.put id { s with active := true }

/-- Gives the session to a returning client, with the events it missed. -/
def reclaim (r : Registry) (id : SessionId) (last : Option EventId) :
    Registry × Option (Session × List Event) :=
  match r.lookup id with
  | (r, none) => (r, none)
  | (r, some s) =>
    let s := s.reclaim last r.now
    (r.put id s, some (s, s.replay))

/-- Keeps an event for a session that nobody holds. -/
def buffer (r : Registry) (id : SessionId) (e : Event) : Registry :=
  match r.find? id with
  | none => r.note (.sessionUnknown id e.id)
  | some s =>
    if s.active then r
    else
      match s.miss e with
      | (s, none) => r.put id s
      | (s, some evicted) => (r.put id s).note (.eventEvicted id evicted.id)

/-- Keeps an event for every session that nobody holds, and counts them. -/
def bufferAll (r : Registry) (e : Event) : Registry × Nat :=
  ({ r with
      sessions := r.sessions.map fun (id, s) => (id, if s.active then s else (s.miss e).1) },
    r.disconnected)

/-- Marks the session as held by nobody; its retention starts now. -/
def disconnect (r : Registry) (id : SessionId) : Registry :=
  match r.find? id with
  | none => r
  | some s => (r.put id (s.disconnect r.now)).note (.sessionDisconnected id)

/-- Forgets a session, whatever its state, and says whether it was known. -/
def remove (r : Registry) (id : SessionId) : Registry × Bool :=
  ({ r with sessions := Table.erase r.sessions id }, (r.find? id).isSome)

/-- Forgets every expired session, and counts them. -/
def sweep (r : Registry) : Registry × Nat :=
  let kept := r.sessions.filter fun entry => !r.isExpired entry.2
  let removed := r.sessions.length - kept.length
  let swept := { r with sessions := kept }
  (if removed = 0 then swept else swept.note (.sessionsSwept removed), removed)

/-! ## The background sweep -/

/-- When the background sweep runs next. -/
def nextSweep (r : Registry) : Option Nat := r.sweeper.bind (·.due)

/-- Sets the clock. -/
def setClock (r : Registry) (now : Nat) : Registry := { r with now }

/-- Sweeps if the background sweep is due. -/
def runSweeper (r : Registry) : Registry :=
  match r.sweeper with
  | none => r
  | some ticker =>
    if ticker.isDue r.now then { r.sweep.1 with sweeper := some (ticker.fire r.now) } else r

/-- Lets time pass smoothly: each sweep due on the way runs at its own time. -/
def sleep (r : Registry) (span : Nat) : Registry :=
  Clock.glide nextSweep (fun t r => (r.setClock t).runSweeper) (r.now + span) r.now r

/-- Moves the clock at once; a sweep that became due on the way then runs once. -/
def jump (r : Registry) (span : Nat) : Registry := (r.setClock (r.now + span)).runSweeper

/-- Ends the background sweep. A sweep whose first run the clock cannot name has
failed by then. -/
def stop (r : Registry) : Registry :=
  match r.sweeper with
  | none => r
  | some ticker =>
    let r := { r with sweeper := none }
    (if ticker.due.isNone then r.note .sweepFailed else r).note .sweepStopped

end Registry

end EventRelay
