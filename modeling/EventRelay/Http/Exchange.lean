import EventRelay.Http.Header
import EventRelay.Http.Peer
import EventRelay.Http.Uri

/-!
# Requests and responses
-/

namespace EventRelay.Http

inductive Version where
  | http09 | http10 | http11 | http2 | http3
  deriving Repr, DecidableEq

/-- From version 1.1 on a response can be sent in parts. -/
def Version.canStream : Version → Bool
  | .http09 | .http10 => false
  | .http11 | .http2 | .http3 => true

structure Request where
  method : String
  uri : Uri
  version : Version
  headers : Headers
  /-- The other end of the connection, if the server knows it. -/
  peer : Option Peer := none
  deriving Repr, DecidableEq

namespace Request

/-- The request came over an encrypted connection, to the server itself or to a
proxy in front of it. -/
def isSecure (r : Request) : Bool :=
  r.uri.scheme == some "https"
    || (r.headers.text? "x-forwarded-proto").any fun proto =>
      proto.toList.map Char.toLower == "https".toList

end Request

/-- The body of a response: a text, or something that goes on. -/
inductive Body (β : Type) where
  | text (s : String)
  | ongoing (b : β)
  deriving Repr, DecidableEq

structure Response (β : Type) where
  status : Nat
  /-- Fields in the order of their names. -/
  headers : List (String × String) := []
  body : Body β
  deriving Repr

namespace Response

variable {β : Type}

/-- A response with a text of a media type. -/
def ofText (status : Nat) (mediaType text : String) : Response β :=
  { status
    headers := [("content-length", toString text.utf8ByteSize), ("content-type", mediaType)]
    body := .text text }

/-- A response in plain words. -/
def plain (status : Nat) (text : String) : Response β :=
  ofText status "text/plain; charset=utf-8" text

/-- The response with more fields. -/
def withFields (r : Response β) (fields : List (String × String)) : Response β :=
  { r with headers := (r.headers ++ fields).mergeSort fun a b => a.1 ≤ b.1 }

/-- The path is not served. -/
def notFound : Response β := { status := 404, body := .text "" }

/-- The path is not served for this method. -/
def methodNotAllowed : Response β :=
  { status := 405, headers := [("allow", "GET,HEAD"), ("content-length", "0")], body := .text "" }

end Response

end EventRelay.Http
