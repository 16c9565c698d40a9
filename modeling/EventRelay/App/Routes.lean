import EventRelay.App.Arrival
import EventRelay.App.Basic
import EventRelay.EventStream
import EventRelay.Text.Json

/-!
# Routes

Three paths are served, to GET and HEAD: `/health`, `/sse/stats` and the event
stream `/sse`. Opening a stream registers a client; the stream releases it when
it ends, from whichever side.
-/

namespace EventRelay

namespace Refusal

/-- The status and words a refusal is answered with. -/
def status : Refusal → Nat
  | .streamingUnsupported => 505
  | .entropy _ => 500
  | .shutDown => 503

def reply : Refusal → String
  | .streamingUnsupported => "HTTP VERSION NOT SUPPORTED"
  | .entropy _ => "INTERNAL SERVER ERROR"
  | .shutDown => "SERVICE UNAVAILABLE"

end Refusal

/-- The cookie that binds a browser to its session. -/
def sessionCookie (name : String) (id : SessionId) (maxAge : Nat) (secure : Bool) : String :=
  s!"{name}={id}; Path=/; Max-Age={maxAge}; HttpOnly; SameSite=Strict"
    ++ if secure then "; Secure" else ""

namespace App

abbrev Response := Http.Response EventStream

/-! ## Streams -/

/-- The end of a stream gives up its client, whose session may then be reclaimed. -/
def release (a : App) (s : EventStream) : App :=
  let a := a.note (.streamReleased s.client.session)
  { a with broker := (a.broker.leave s.client).release s.client.session s.client.id }

/-- Drops the body of a stream. -/
def dropStream (a : App) (s : EventStream) : App := if s.finished then a else a.release s

/-- Takes up to `max` frames off a stream, without waiting. The stream ends when
its client is closed. -/
def frames (a : App) (s : EventStream) (max : Nat) :
    App × EventStream × List Frame × Broker.ReadEnd :=
  if s.finished && max ≠ 0 then (a, s, [], .closed)
  else
    let (broker, events, readEnd) := a.broker.readUpTo s.client max
    let a := (events.flatMap Frame.notices).foldl note { a with broker }
    let frames := EventStream.framesOf s.retry events
    let s := { s with retry := if events.isEmpty then s.retry else none }
    if readEnd = .closed then
      ((a.note (.streamEnded s.client.session)).release s, { s with finished := true }, frames,
        readEnd)
    else (a, s, frames, readEnd)

/-- The fields of the response that opens a stream. A cookie that is no field
value is left out. -/
def streamHeaders (a : App) (secure : Bool) (id : SessionId) : App × List (String × String) :=
  let cookie := sessionCookie a.settings.cookieName id a.settings.cookieMaxAge secure
  let valid := Http.isFieldValue (Utf8.encode cookie)
  let fields := [("cache-control", "no-cache"), ("content-type", "text/event-stream")]
    ++ (if valid then [("set-cookie", cookie)] else [])
    ++ [("x-accel-buffering", "no"), (sessionHeader, id)]
  (if valid then a else a.note (.cookieRefused a.settings.cookieName), fields)

/-- Answers a refused request. -/
def refuse (a : App) (r : Refusal) : App × Response :=
  let a :=
    match r with
    | .entropy _ => a.note (.sessionUnopened r)
    | _ => a
  (a, .plain r.status r.reply)

/-- Opens a stream: registers a client and waits for the answer. A new session is
named by what the random source draws. -/
def openStream (a : App) (r : Http.Request) (draws : List Draw) : App × Response :=
  match StreamQuery.read r.uri.query with
  | .error name =>
    (a, .plain 400 s!"Failed to deserialize query string: duplicate field `{name}`")
  | .ok query =>
    let arrival := Arrival.ofRequest a.settings.cookieName r query
    let (broker, asked) := a.broker.register arrival draws
    match asked with
    | .error refusal => { a with broker }.refuse refusal
    | .ok ticket =>
      let a := { a with broker := broker.await [ticket] }
      match a.broker.answer? ticket with
      | some (.ok client) =>
        let a := a.note (.streamOpened client.session client.id)
        let (a, headers) := a.streamHeaders r.isSecure client.session
        (a, { status := 200, headers, body := .ongoing { client, retry := some a.settings.retry } })
      | some (.error refusal) => a.refuse refusal
      | none => a.refuse .shutDown

/-! ## Other routes -/

def health : Response := .plain 200 "healthy"

/-- The numbers of clients and sessions. -/
def statsText (s : Stats) : String :=
  s!"\x7b\"status_code\":200,\"data\":\x7b\"live_clients\":{s.liveClients}," ++
  s!"\"total_sessions\":{s.totalSessions},\"buffered_sessions\":{s.bufferedSessions}\x7d\x7d"

def readStats (a : App) : App × Response :=
  let stats := a.broker.stats
  (a.note (.statsRead stats), .ofText 200 "application/json" (statsText stats))

/-- The handler of a path. -/
def route? : String → Option (App → Http.Request → List Draw → App × Response)
  | "/health" => some fun a _ _ => (a, health)
  | "/sse" => some openStream
  | "/sse/stats" => some fun a _ _ => a.readStats
  | _ => none

/-- The response to HEAD: that to GET with a body that has ended. -/
def withoutBody (a : App) (response : Response) : App × Response :=
  match response.body with
  | .text _ => (a, { response with body := .text "" })
  | .ongoing stream =>
    (a.dropStream stream, { response with body := .ongoing { stream with finished := true } })

/-- Answers a request. -/
def handle (a : App) (r : Http.Request) (draws : List Draw) : App × Response :=
  match route? r.uri.path with
  | none => (a, .notFound)
  | some handler =>
    if r.method = "GET" then handler a r draws
    else if r.method = "HEAD" then
      let (a, response) := handler a r draws
      a.withoutBody response
    else (a, .methodNotAllowed)

end App

end EventRelay
