import EventRelay.Broker.Basic
import EventRelay.Http.Exchange
import EventRelay.Http.Query

/-!
# Arrivals over HTTP

What a request for the event stream says of its sender: the session it wants
back, from a cookie or else a header; the last event it has seen, from a header
or else the query; and the topics it asks for.
-/

namespace EventRelay

/-- The field that carries the session id where there are no cookies. -/
def sessionHeader : String := "x-sse-session-id"

/-- The field that carries the id of the last event seen. -/
def lastEventIdHeader : String := "last-event-id"

/-- The fields of the query that count. -/
structure StreamQuery where
  lastEventId : Option EventId := none
  topics : Option String := none
  deriving Repr, DecidableEq

namespace StreamQuery

/-- Reads a query, or names the field that is given twice. -/
def read (query : Option String) : Except String StreamQuery :=
  let fields := Http.Query.fields (query.getD "")
  match Http.Query.firstRepeated? ["last_event_id", "topics"] fields with
  | some name => .error name
  | none => .ok { lastEventId := fields.lookup "last_event_id", topics := fields.lookup "topics" }

/-- The topics asked for: the parts between commas, without blanks around them. -/
def subscriptions (q : StreamQuery) : List String :=
  match q.topics with
  | none => []
  | some topics => ((Text.split ',' topics).map Text.trim).filter (· ≠ "")

end StreamQuery

/-- The value of a cookie: that of the first pair with its name that has one, in
those `cookie` fields that may be read as text. -/
def Http.Headers.cookie? (h : Http.Headers) (name : String) : Option String :=
  let pairs := ((h.all "cookie").filterMap Http.fieldText?).flatMap fun value =>
    (Text.split ';' value).filterMap fun pair => Text.splitOnce? '=' (Text.trim pair)
  (pairs.find? fun pair => pair.1 == name && pair.2 != "").map (·.2)

namespace Arrival

/-- The session a request wants back. -/
def presentedSession (cookieName : String) (h : Http.Headers) : Option SessionId :=
  (h.cookie? cookieName).or (h.text? sessionHeader)

/-- The last event the sender of a request has seen. -/
def presentedEvent (h : Http.Headers) (q : StreamQuery) : Option EventId :=
  ((h.text? lastEventIdHeader).or q.lastEventId).filter (· ≠ "")

/-- The arrival that a request for the event stream is. -/
def ofRequest (cookieName : String) (r : Http.Request) (q : StreamQuery) : Arrival :=
  { streaming := r.version.canStream
    session := presentedSession cookieName r.headers
    lastEventId := presentedEvent r.headers q
    metadata :=
      { userAgent := r.headers.text? "user-agent"
        remoteAddress := r.peer.map Http.Peer.text
        subscriptions := q.subscriptions } }

end Arrival

end EventRelay
