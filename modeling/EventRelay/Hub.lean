import EventRelay.Client
import EventRelay.Registry

/-!
# The hub: sessions and the clients that hold them

The hub owns the table of live clients and the session registry, and is where
the two are changed together: admitting a connection, dispatching an event,
disconnecting a client. The broker calls it with one request at a time.

A session is in the client table exactly while it is active, so an event goes
to a session's client or to its buffer and never to both.
-/

namespace EventRelay

/-- Settings of a broker. -/
structure Broker.Config where
  /-- Room in a client's queue, besides its greeting and replay. -/
  queueCapacity : Nat := 64
  /-- Room in the queue of messages that producers hand in. -/
  intakeCapacity : Nat := 1024
  /-- Time between heartbeats. -/
  heartbeat : Nat := 25000
  /-- How long a client's queue may stay full. -/
  patience : Nat := 5000
  deriving Repr, DecidableEq

/-- Sessions, live clients and what ties them together. -/
structure Hub where
  config : Broker.Config
  registry : Registry
  clients : Table Slot := []
  /-- The number of live clients as others see it. -/
  liveCount : Nat := 0
  /-- The clients that have been told that their connection is over. -/
  closed : List ClientId := []
  /-- What was reported, the latest first. -/
  journal : List Notice := []
  deriving Repr, DecidableEq

/-- A connection's request to be admitted, with the fresh names it may need. -/
structure Registration where
  /-- The session the connection wants back. -/
  candidate : Option SessionId
  lastEventId : Option EventId
  metadata : Metadata
  /-- What the random source will answer if a session id is needed. -/
  draws : List Draw
  /-- The name of the new client. -/
  client : ClientId
  /-- The name of the greeting event. -/
  greeting : EventId
  /-- The caller will have gone away before the answer. -/
  abandoned : Bool := false
  deriving Repr

namespace Hub

def note (h : Hub) (n : Notice) : Hub := { h with journal := n :: h.journal }

def now (h : Hub) : Nat := h.registry.now

def updateCount (h : Hub) : Hub := { h with liveCount := h.clients.length }

/-! ## Disconnecting -/

/-- Disconnects the session's client and starts the session's retention. With a
client given, only if that client still holds the session, so that the late
release of an old connection does not end a newer one. Says whether a client was
disconnected. -/
def unregister (h : Hub) (id : SessionId) (client : Option ClientId) : Hub × Bool :=
  match Table.get? h.clients id with
  | some slot =>
    if client.all (· == slot.client) then
      (({ h with
          clients := Table.erase h.clients id
          closed := slot.client :: h.closed
          registry := h.registry.disconnect id } : Hub).updateCount, true)
    else (h.note (.noLiveClient id), false)
  | none => (h.note (.noLiveClient id), false)

/-- Disconnects a client for not reading. -/
def forceDisconnect (h : Hub) (id : SessionId) : Hub :=
  match h.unregister id none with
  | (h, true) => h.note (.clientUnresponsive id)
  | (h, false) => h

/-- Handles a request to end the session's connection. -/
def release (h : Hub) (id : SessionId) (client : Option ClientId) : Hub :=
  match h.unregister id client with
  | (h, true) => h.note (.clientUnregistered id)
  | (h, false) => h

/-- Disconnects every client. -/
def closeAll (h : Hub) : Hub :=
  let registry := (Table.ids h.clients).foldl Registry.disconnect h.registry
  (({ h with
      clients := []
      closed := h.clients.map (·.2.client) ++ h.closed
      registry } : Hub).updateCount).note (.loopExited h.clients.length)

/-! ## Admission -/

/-- Opens the connection of a session that is active from now on. Its queue has
room for the greeting, the replay and as many events more as the settings say. -/
def openClient (h : Hub) (g : Registration) (id : SessionId) (reconnects : Option Nat)
    (replay : List Event) : Hub × Except Obstacle Client :=
  let reconnected := reconnects.isSome
  let replayed := replay.length
  let capacity := h.config.queueCapacity + replayed + 1
  if Limits.maxWord < capacity then (h, .error (.fault .lengthOverflow))
  else if Limits.maxQueue < capacity then (h, .error (.fault .queueTooLarge))
  else
    let greeting := Event.connected g.greeting id reconnected replayed
    let slot : Slot := { client := g.client, channel := { capacity } }
    let slot := (greeting :: replay).foldl (fun s e => (s.offer e h.config.patience h.now).1) slot
    let h :=
      match Table.get? h.clients id with
      | none => h
      | some previous =>
        { h with closed := previous.client :: h.closed }.note (.clientReplaced id previous.client)
    let h := { h with clients := Table.put id slot h.clients }.updateCount
    let h :=
      match reconnects with
      | some count => h.note (.sessionReconnected id count replayed)
      | none => h.note (.sessionRegistered id)
    (h, .ok { id := g.client, session := id, reconnected, replayed })

/-- The session a registration may take back: the one it presents, if it has no
live client and may be claimed. -/
def claim? (h : Hub) (g : Registration) : Option SessionId :=
  g.candidate.filter fun id => !Table.contains h.clients id && h.registry.claimable id g.metadata

/-- The session that a registration takes back, if one more return to it cannot be counted. -/
def overcounted? (h : Hub) (g : Registration) : Option SessionId :=
  (h.claim? g).filter fun id => (h.registry.find? id).any Session.countFull

/-- Admits a connection: to the session it presents if it may have it, else to a
new one. -/
def accept (h : Hub) (g : Registration) : Hub × Except Obstacle Client :=
  let (registry, reclaimed) :=
    match h.claim? g with
    | none => (h.registry, none)
    | some id =>
      match h.registry.reclaim id g.lastEventId with
      | (registry, none) => (registry, none)
      | (registry, some (session, replay)) => (registry, some (id, session, replay))
  let h := { h with registry }
  match reclaimed with
  | some (id, session, replay) => h.openClient g id (some session.reconnects.toNat) replay
  | none =>
    match h.registry.create g.metadata g.draws with
    | (registry, .error obstacle) => ({ h with registry }, .error obstacle)
    | (registry, .ok id) => { h with registry }.openClient g id none []

/-- Handles a registration. A client whose caller has gone away is disconnected
again at once. -/
def register (h : Hub) (g : Registration) : Hub × Except Obstacle Client :=
  match h.accept g with
  | (h, .error obstacle) => (h, .error obstacle)
  | (h, .ok client) =>
    if g.abandoned then
      (((h.note (.registrationAbandoned client.session)).unregister client.session
        (some client.id)).1, .ok client)
    else (h, .ok client)

/-! ## Delivery -/

/-- Offers an event to the session's client, if it has one. -/
def offer (h : Hub) (id : SessionId) (e : Event) : Hub × Option Delivery :=
  match Table.get? h.clients id with
  | none => (h, none)
  | some slot =>
    let (after, delivery) := slot.offer e h.config.patience h.now
    let h := { h with clients := Table.put id after h.clients }
    (if delivery.metFullQueue then h.note (.channelFull slot.client e.id) else h, some delivery)

/-- Offers an event to every client, and names the sessions whose clients have
to be disconnected. -/
def offerAll (h : Hub) (e : Event) : Hub × List SessionId :=
  let offered := h.clients.map fun (id, slot) => (id, slot.offer e h.config.patience h.now)
  let full := offered.filterMap fun (_, slot, delivery) =>
    if delivery.metFullQueue then some (Notice.channelFull slot.client e.id) else none
  ({ h with
      clients := offered.map fun (id, slot, _) => (id, slot)
      journal := full.reverse ++ h.journal },
    offered.filterMap fun (id, _, delivery) => if delivery.isFatal then some id else none)

/-- Sends an event to every live client. -/
def dispatchLive (h : Hub) (e : Event) : Hub :=
  let (h, victims) := h.offerAll e
  victims.foldl forceDisconnect h

/-- Sends an event to one session: to its client, or to its buffer if it has none
or loses it now. -/
def dispatchTo (h : Hub) (e : Event) (id : SessionId) : Hub :=
  match h.offer id e with
  | (h, none) => { h with registry := h.registry.buffer id e }
  | (h, some delivery) =>
    if delivery.isFatal then
      let h := h.forceDisconnect id
      { h with registry := h.registry.buffer id e }
    else h

/-- Sends a message to its audience. -/
def dispatch (h : Hub) (m : Message) : Hub :=
  match m.scope with
  | .everyone =>
    let h := h.dispatchLive m.event
    { h with registry := (h.registry.bufferAll m.event).1 }
  | .live => h.dispatchLive m.event
  | .sessions ids => ids.foldl (fun h id => h.dispatchTo m.event id) h

/-! ## Slow clients -/

/-- Disconnects the clients that have left their queue full for too long, or do
not read any more. -/
def reap (h : Hub) : Hub :=
  let checked := h.clients.map fun (id, slot) => (id, slot.check h.config.patience h.now)
  let victims := checked.filterMap fun (id, _, late) => if late then some id else none
  victims.foldl forceDisconnect
    { h with clients := checked.map fun (id, slot, _) => (id, slot) }

/-- The earliest moment a client counts as unresponsive. -/
def nextDeadline (h : Hub) : Option Nat :=
  (h.clients.filterMap fun entry => entry.2.deadline h.config.patience).min?

/-- Some client's deadline is past the end of the clock. -/
def deadlineOverflows (h : Hub) : Bool :=
  h.clients.any fun entry => (entry.2.deadline h.config.patience).any (Clock.horizon ≤ ·)

/-! ## The client's side -/

/-- The slot a handle belongs to, while its connection lasts. -/
def slot? (h : Hub) (c : Client) : Option Slot :=
  (Table.get? h.clients c.session).filter (·.client == c.id)

/-- Takes the next event off the client's queue, without waiting. -/
def read (h : Hub) (c : Client) : Hub × Reading :=
  match h.slot? c with
  | none => (h, .closed)
  | some slot =>
    match slot.channel.queue with
    | [] => (h, .pending)
    | e :: rest =>
      let slot := { slot with channel := { slot.channel with queue := rest } }
      ({ h with clients := Table.put c.session slot h.clients }, .event e)

/-- Gives up the reading end of the client's queue. -/
def leave (h : Hub) (c : Client) : Hub :=
  match h.slot? c with
  | none => h
  | some slot =>
    let slot := { slot with channel := { slot.channel with attended := false } }
    { h with clients := Table.put c.session slot h.clients }

/-- Whether the client has been told that its connection is over. -/
def isClosed (h : Hub) (c : Client) : Bool := h.closed.contains c.id

end Hub

end EventRelay
