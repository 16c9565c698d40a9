import EventRelay.Hub

/-!
# The broker and its requests

Only the broker's loop touches the hub. Everybody else leaves a request in one
of three queues and goes on: releases of connections, registrations of new
ones, and messages from producers. A registration is answered later under its
ticket, and waits in the lobby if it finds its queue full; a message that finds
the intake full is dropped.

This module holds the broker's state and the requests; the loop that works them
off is in `EventRelay.Broker.Loop`.
-/

namespace EventRelay

/-- What has become of the broker's loop. -/
inductive Phase where
  | running
  /-- It was told to stop. -/
  | stopped
  /-- It ended by itself, in a request past a limit of the platform. -/
  | failed (f : Fault)
  deriving Repr, DecidableEq

/-- A request to end a session's connection: the given client's, or whichever
there is. -/
structure Release where
  session : SessionId
  client : Option ClientId
  deriving Repr, DecidableEq

/-- What a connection presents when it arrives. -/
structure Arrival where
  /-- The connection can flush partial writes. -/
  streaming : Bool := true
  session : Option SessionId := none
  lastEventId : Option EventId := none
  metadata : Metadata := {}
  deriving Repr, DecidableEq

/-- Names a registration until it is answered. -/
abbrev Ticket := Nat

/-- What goes off at a moment set beforehand. -/
inductive Alarm where
  /-- The registry is to be swept. -/
  | sweep
  /-- A heartbeat is to be handed in. -/
  | heartbeat
  /-- A client's time to read is up. -/
  | stall
  deriving Repr, DecidableEq

/-- The hub with the queues of requests that wait for the loop. -/
structure Broker where
  hub : Hub
  phase : Phase := .running
  releases : List Release := []
  registrations : List (Ticket × Registration) := []
  /-- Registrations whose callers wait for room in their queue. -/
  lobby : List (Ticket × Registration) := []
  intake : List Message := []
  /-- Answered registrations, the latest first. -/
  answers : List (Ticket × Except Refusal Client) := []
  /-- The timer of the heartbeats. -/
  heartbeat : Ticker
  /-- The alarms in the order in which they were set, the latest last. -/
  alarms : List Alarm := [.sweep, .heartbeat, .stall]
  /-- Somebody has waited for the loop to end. -/
  awaited : Bool := false
  /-- The serial number of the next fresh name. -/
  serial : Nat := 1
  deriving Repr

namespace Broker

/-- A broker whose loop runs, unless its intake is too large. -/
def start (config : Config) (registry : Registry) : Except Fault Broker :=
  if Limits.maxQueue < config.intakeCapacity then .error .queueTooLarge
  else
    let hub : Hub := { config, registry }
    let hub := hub.note (.brokerStarted config.queueCapacity config.intakeCapacity
      config.heartbeat config.patience)
    .ok { hub, heartbeat := Ticker.start config.heartbeat registry.now }

def config (b : Broker) : Config := b.hub.config

def registry (b : Broker) : Registry := b.hub.registry

def now (b : Broker) : Nat := b.hub.now

def note (b : Broker) (n : Notice) : Broker := { b with hub := b.hub.note n }

def withRegistry (b : Broker) (registry : Registry) : Broker :=
  { b with hub := { b.hub with registry } }

def isRunning (b : Broker) : Bool := b.phase == .running

/-- The broker after an alarm was set. -/
def setAlarm (b : Broker) (a : Alarm) : Broker := { b with alarms := b.alarms.erase a ++ [a] }

/-- A serial number that was not used before. -/
def freshSerial (b : Broker) : Broker × Nat := ({ b with serial := b.serial + 1 }, b.serial)

/-- An event id that was not used before. -/
def freshEventId (b : Broker) : Broker × EventId :=
  let (b, n) := b.freshSerial
  (b, EventId.ofSerial n)

def stats (b : Broker) : Stats :=
  { liveClients := b.hub.liveCount
    totalSessions := b.registry.size
    bufferedSessions := b.registry.disconnected }

/-- Everything reported so far and not yet taken: what the hub reported and what the
registry did, each with the latest first. -/
def journal (b : Broker) : List Notice := b.hub.journal ++ b.registry.journal

/-- The broker with an empty journal. -/
def clearJournal (b : Broker) : Broker :=
  { b with hub := { b.hub with journal := [], registry := { b.registry with journal := [] } } }

/-! ## Registering -/

/-- The most registrations that wait in their queue. -/
def queueLength : Nat := 64

/-- A registration joins its queue, or the lobby if the queue is full. -/
def enqueue (b : Broker) (ticket : Ticket) (g : Registration) : Broker :=
  if b.registrations.length < queueLength then
    { b with registrations := b.registrations ++ [(ticket, g)] }
  else { b with lobby := b.lobby ++ [(ticket, g)] }

/-- Asks for a connection, with what the random source will answer if the loop
needs a session id. A session that the connection presents but may not claim is
not asked for; the loop looks again when it comes to the request. -/
def register (b : Broker) (a : Arrival) (draws : List Draw) : Broker × Except Refusal Ticket :=
  if !a.streaming then (b.note .cannotStream, .error .streamingUnsupported)
  else
    let (b, candidate) :=
      match a.session with
      | none => (b, none)
      | some id =>
        if b.registry.claimable id a.metadata then (b, some id)
        else (b.note (.notReclaimable id), none)
    if b.isRunning then
      let (b, n) := b.freshSerial
      let registration : Registration :=
        { candidate, lastEventId := a.lastEventId, metadata := a.metadata, draws,
          client := ⟨n⟩, greeting := EventId.ofSerial n }
      (b.enqueue n registration, .ok n)
    else (b, .error .shutDown)

/-- The caller of a waiting registration goes away. A registration in the lobby goes
with its caller. -/
def abandon (b : Broker) (ticket : Ticket) : Broker :=
  { b with
    registrations := b.registrations.map fun (t, g) =>
      (t, if t = ticket then { g with abandoned := true } else g)
    lobby := b.lobby.filter fun entry => entry.1 ≠ ticket }

/-- The answer to a registration, once there is one. -/
def answer? (b : Broker) (ticket : Ticket) : Option (Except Refusal Client) :=
  b.answers.lookup ticket

/-! ## Releasing -/

def requestRelease (b : Broker) (r : Release) : Broker :=
  if b.isRunning then { b with releases := b.releases ++ [r] }
  else b.note (.releaseIgnored r.session)

/-- Asks for the end of a session's connection, whichever it is. -/
def unregister (b : Broker) (id : SessionId) : Broker := b.requestRelease ⟨id, none⟩

/-- Asks for the end of one client's connection. -/
def release (b : Broker) (id : SessionId) (client : ClientId) : Broker :=
  b.requestRelease ⟨id, some client⟩

/-! ## Sending -/

/-- The intake holds as many messages as it can, at least one. -/
def intakeFull (b : Broker) : Bool := decide (max b.config.intakeCapacity 1 ≤ b.intake.length)

/-- Hands a message in, and never waits. -/
def send (b : Broker) (m : Message) : Broker :=
  if !b.isRunning then b.note (.messageDiscarded m.event.type m.event.id)
  else if b.intakeFull then b.note (.intakeFull m.event.type m.event.id)
  else { b with intake := b.intake ++ [m] }

/-- Sends a new event to a scope. -/
def sendNew (b : Broker) (type : String) (payload : Bytes) (scope : Scope) : Broker :=
  let (b, id) := b.freshEventId
  b.send { event := { id, type, payload }, scope }

/-- Sends a new event to everyone. -/
def broadcast (b : Broker) (type : String) (payload : Bytes) : Broker :=
  b.sendNew type payload .everyone

/-- Sends a new event to the named sessions, if any are named. -/
def sendTo (b : Broker) (ids : List SessionId) (type : String) (payload : Bytes) : Broker :=
  if ids.isEmpty then b else b.sendNew type payload (.sessions ids)

/-! ## The client's side -/

/-- Takes the next event off a client's queue, without waiting. When the loop has
failed, every queue has lost its writing end. -/
def read (b : Broker) (c : Client) : Broker × Reading :=
  match b.phase with
  | .failed _ => (b, .closed)
  | _ =>
    let (hub, reading) := b.hub.read c
    ({ b with hub }, reading)

/-- Why reading several events stopped. -/
inductive ReadEnd where
  /-- As many were read as were asked for. -/
  | max
  | pending
  | closed
  deriving Repr, DecidableEq

/-- Takes up to `max` events off a client's queue, without waiting. -/
def readUpTo (b : Broker) (c : Client) : Nat → Broker × List Event × ReadEnd
  | 0 => (b, [], .max)
  | max + 1 =>
    match b.read c with
    | (b, .pending) => (b, [], .pending)
    | (b, .closed) => (b, [], .closed)
    | (b, .event e) =>
      let (b, events, readEnd) := b.readUpTo c max
      (b, e :: events, readEnd)

/-- Gives up the reading end of a client's queue. -/
def leave (b : Broker) (c : Client) : Broker := { b with hub := b.hub.leave c }

def isClosed (b : Broker) (c : Client) : Bool := b.hub.isClosed c

end Broker

end EventRelay
