import EventRelay.Clock
import EventRelay.Identity
import EventRelay.Refusal

/-!
# What the relay reports

Every line of the relay's log is one constructor of `Notice`: what happened and
to whom. `Notice.level` says how important it is and `Notice.text` how it reads.
-/

namespace EventRelay

/-- How important a notice is, the most important first. -/
inductive Level where
  | error | warn | info | debug | trace
  deriving Repr, DecidableEq

namespace Level

def name : Level → String
  | .error => "ERROR"
  | .warn => "WARN"
  | .info => "INFO"
  | .debug => "DEBUG"
  | .trace => "TRACE"

def rank : Level → Nat
  | .error => 1
  | .warn => 2
  | .info => 3
  | .debug => 4
  | .trace => 5

end Level

/-- The least important level that is still shown; `none` shows nothing. -/
abbrev Verbosity := Option Level

namespace Verbosity

def name : Verbosity → String
  | none => "OFF"
  | some level => level.name

/-- Whether notices of a level are shown. -/
def shows (v : Verbosity) (level : Level) : Bool := v.any fun least => level.rank ≤ least.rank

end Verbosity

/-- Live and retained sessions at one moment. -/
structure Stats where
  liveClients : Nat
  totalSessions : Nat
  bufferedSessions : Nat
  deriving Repr, DecidableEq

/-- One line of the log. -/
inductive Notice where
  -- sessions
  | entropyFailed (refusal : Refusal)
  | sessionCreated (session : SessionId)
  | sessionIdTaken
  | sessionUnknown (session : SessionId) (event : EventId)
  | eventEvicted (session : SessionId) (event : EventId)
  | sessionDisconnected (session : SessionId)
  | sessionEvicted (session : SessionId)
  | sessionsSwept (count : Nat)
  | sweepFailed
  | sweepStopped
  -- registration
  | cannotStream
  | notReclaimable (session : SessionId)
  | registrationAbandoned (session : SessionId)
  | clientReplaced (session : SessionId) (client : ClientId)
  | sessionReconnected (session : SessionId) (reconnects replayed : Nat)
  | sessionRegistered (session : SessionId)
  -- delivery and disconnection
  | channelFull (client : ClientId) (event : EventId)
  | clientUnresponsive (session : SessionId)
  | clientUnregistered (session : SessionId)
  | noLiveClient (session : SessionId)
  -- intake and life of the broker
  | brokerStarted (queueCapacity intakeCapacity : Nat) (heartbeat patience : Nat)
  | intakeFull (type : String) (event : EventId)
  | heartbeatSkipped
  | messageDiscarded (type : String) (event : EventId)
  | releaseIgnored (session : SessionId)
  | loopExited (closed : Nat)
  | brokerTaskFailed
  | brokerStopped
  -- notifications
  | noRenderer (type template : String)
  | renderFailed (type template reason : String)
  | forwardingToAll (type : String)
  | forwardingTo (type : String) (sessions : Nat)
  -- event streams
  | streamOpened (session : SessionId) (client : ClientId)
  | streamEnded (session : SessionId)
  | streamReleased (session : SessionId)
  | unsafeId (type : String)
  | unsafeType (event : EventId)
  | cookieRefused (name : String)
  | statsRead (stats : Stats)
  | sessionUnopened (refusal : Refusal)
  -- the whole program
  | sessionsConfigured (bufferCapacity ttl sweepInterval : Nat) (strictBinding : Bool)
  | subsystemStopped
  | starting (environment : String) (ttl : Nat)
  | listening (address : String)
  | originIgnored (origin : String)
  | shutdownRequested
  | serverFailed (reason : String)
  deriving Repr, DecidableEq

namespace Notice

def level : Notice → Level
  | entropyFailed _ | sweepFailed | brokerTaskFailed | renderFailed .. | sessionUnopened _
  | serverFailed _ => .error
  | sessionIdTaken | cannotStream | clientReplaced .. | clientUnresponsive _ | intakeFull ..
  | heartbeatSkipped | noRenderer .. | unsafeId _ | unsafeType _ | cookieRefused _
  | originIgnored _ => .warn
  | sessionsSwept _ | sweepStopped | sessionReconnected .. | sessionRegistered _
  | clientUnregistered _ | brokerStarted .. | loopExited _ | brokerStopped
  | sessionsConfigured .. | subsystemStopped | starting .. | listening _
  | shutdownRequested => .info
  | sessionCreated _ | eventEvicted .. | sessionDisconnected _ | sessionEvicted _
  | notReclaimable _ | registrationAbandoned _ | channelFull .. | noLiveClient _
  | messageDiscarded .. | releaseIgnored _ | forwardingToAll _ | forwardingTo ..
  | streamOpened .. | streamEnded _ | streamReleased _ | statsRead _ => .debug
  | sessionUnknown .. => .trace

def text : Notice → String
  | entropyFailed refusal => s!"Failed to generate session id: {refusal.message}"
  | sessionCreated session => s!"Created session {session}"
  | sessionIdTaken => "Session id collision, regenerating"
  | sessionUnknown session event => s!"Not buffering event {event} for unknown session {session}"
  | eventEvicted session event => s!"Session {session} buffer full, evicted event {event}"
  | sessionDisconnected session => s!"Session {session} disconnected"
  | sessionEvicted session => s!"Evicted expired session {session} on lookup"
  | sessionsSwept count => s!"Session sweep removed {count} expired session(s)"
  | sweepFailed => "Session sweep task failed"
  | sweepStopped => "Session sweep stopped"
  | cannotStream => "Rejecting SSE connection: transport cannot stream responses"
  | notReclaimable session => s!"Session {session} cannot be reclaimed, starting a new session"
  | registrationAbandoned session =>
    s!"Registration for session {session} was abandoned by its caller"
  | clientReplaced session client =>
    s!"Replacing live client {client.text} for session {session}"
  | sessionReconnected session reconnects replayed =>
    s!"Reconnected SSE session {session} (reconnect #{reconnects}, {replayed} event(s) replayed)"
  | sessionRegistered session => s!"Registered new SSE session {session}"
  | channelFull client event => s!"Client {client.text} channel full, dropping event {event}"
  | clientUnresponsive session =>
    s!"Disconnected unresponsive SSE client for session {session}"
  | clientUnregistered session => s!"Unregistered SSE connection for session {session}"
  | noLiveClient session => s!"No live SSE client to unregister for session {session}"
  | brokerStarted queueCapacity intakeCapacity heartbeat patience =>
    s!"SSE broker started: client_channel_capacity={queueCapacity}, " ++
    s!"broadcast_channel_capacity={intakeCapacity}, " ++
    s!"heartbeat_interval={Duration.text heartbeat}, " ++
    s!"slow_consumer_timeout={Duration.text patience}"
  | intakeFull type event => s!"SSE broker intake is saturated, dropping {type} event {event}"
  | heartbeatSkipped => "SSE broker intake is saturated, skipping heartbeat"
  | messageDiscarded type event => s!"SSE broker is shut down, discarding {type} event {event}"
  | releaseIgnored session =>
    s!"SSE broker is shut down, ignoring unregister for session {session}"
  | loopExited closed => s!"SSE broker event loop exiting, closed {closed} live client(s)"
  | brokerTaskFailed => "SSE broker task failed"
  | brokerStopped => "SSE broker stopped"
  | noRenderer type template =>
    s!"No fragment renderer configured, dropping {type} event ({template})"
  | renderFailed type template reason =>
    s!"Failed to render fragment {template} for {type} event: {reason}"
  | forwardingToAll type => s!"Broadcasting {type} event"
  | forwardingTo type sessions => s!"Sending {type} event to {sessions} session(s)"
  | streamOpened session client =>
    s!"Establishing SSE stream for session {session} (client {client.text})"
  | streamEnded session => s!"SSE stream for session {session} closed by the broker"
  | streamReleased session => s!"SSE connection closed for session {session}, cleaning up"
  | unsafeId type => s!"Omitting unsafe SSE id for {type} event"
  | unsafeType event => s!"Omitting unsafe SSE event type on event {event}"
  | cookieRefused name =>
    s!"Unable to build SSE session cookie {name}: failed to parse header value"
  | statsRead stats =>
    s!"SSE stats: BrokerStats \x7b live_clients: {stats.liveClients}, " ++
    s!"total_sessions: {stats.totalSessions}, " ++
    s!"buffered_sessions: {stats.bufferedSessions} \x7d"
  | sessionUnopened refusal => s!"Unable to open SSE session: {refusal.message}"
  | sessionsConfigured bufferCapacity ttl sweepInterval strictBinding =>
    s!"SSE sessions: buffer_capacity={bufferCapacity}, ttl={ttl}s, " ++
    s!"sweep_interval={sweepInterval}s, strict_binding={strictBinding}"
  | subsystemStopped => "SSE subsystem stopped"
  | starting environment ttl => s!"Starting pushline [{environment}] with SSE session TTL {ttl}s"
  | listening address =>
    s!"Server starting... listening for connections on http://{address}"
  | originIgnored origin => s!"Ignoring invalid CORS origin: {origin}"
  | shutdownRequested => "Shutdown signal received, closing SSE connections"
  | serverFailed reason => s!"Failed to start the HTTP server: {reason}"

/-- The line with its level in front. -/
def line (n : Notice) : String := s!"{n.level.name} {n.text}"

end Notice

end EventRelay
