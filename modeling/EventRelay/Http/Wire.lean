import EventRelay.Http.Exchange
import EventRelay.Text.Split

/-!
# Requests and responses in bytes

A request begins with a line of its method, its target and the version, then has
one line for each field, and its head ends with an empty line. A response is
written in the same way. A connection serves one request, so the end of a
response is the end of its connection.
-/

namespace EventRelay.Http.Wire

/-- Bytes as the characters with their numbers. -/
def chars (bytes : Bytes) : List Char := bytes.map fun b => Char.ofNat b.toNat

/-- The bytes that `chars` made characters of. -/
def bytes (cs : List Char) : Bytes := cs.map fun c => c.toNat.toUInt8

/-! ## Requests -/

/-- The most bytes that the head of a request may have. -/
def maxHead : Nat := 65536

/-- The lines of a head, up to the empty line that ends it, if it is there yet. -/
def headLines? (input : Bytes) : Option (List (List Char)) :=
  let lines := (Text.splitChars '\n' (chars input)).map fun line =>
    if line.getLast? = some '\r' then line.dropLast else line
  let head := lines.takeWhile (· ≠ [])
  if head.length + 1 < lines.length then some head else none

def version? (cs : List Char) : Option Version :=
  match String.ofList cs with
  | "HTTP/1.0" => some .http10
  | "HTTP/1.1" => some .http11
  | _ => none

/-- Blanks around the value of a field. -/
def isPadding (c : Char) : Bool := c = ' ' || c = '\t'

/-- A field: its name, a colon, and its value, which may be padded. -/
def field? (line : List Char) : Option (String × Bytes) := do
  let name := line.takeWhile (· ≠ ':')
  let value ← (line.drop name.length).tail?
  let value := ((value.dropWhile isPadding).reverse.dropWhile isPadding).reverse
  let name := String.ofList (name.map Char.toLower)
  if isFieldName name && isFieldValue (bytes value) then some (name, bytes value) else none

/-- The request of a head, sent by the peer. -/
def request? (head : List (List Char)) (peer : Option Peer) : Option Request := do
  match head with
  | [] => none
  | first :: fields =>
    match Text.splitChars ' ' first with
    | [method, target, version] =>
      let method := String.ofList method
      let uri ← Uri.read? (Utf8.decode (bytes target))
      let version ← version? version
      let headers ← fields.mapM field?
      if isToken method then some { method, uri, version, headers, peer } else none
    | _ => none

/-! ## Responses -/

/-- The words for a status. -/
def reason : Nat → String
  | 200 => "OK"
  | 400 => "Bad Request"
  | 404 => "Not Found"
  | 405 => "Method Not Allowed"
  | 500 => "Internal Server Error"
  | 503 => "Service Unavailable"
  | 505 => "HTTP Version Not Supported"
  | _ => ""

/-- The fields of a response that the connection adds: where it ends, and the length
of an empty text. -/
def addedFields {β : Type} (r : Response β) : List (String × String) :=
  let counted := (r.headers.lookup "content-length").isSome
  match r.body with
  | .text text =>
    (if counted then [] else [("content-length", toString text.utf8ByteSize)])
      ++ [("connection", "close")]
  | .ongoing _ => [("connection", "close")]

/-- The head of a response, with the empty line that ends it. -/
def head {β : Type} (r : Response β) : String :=
  let fields := (r.headers ++ addedFields r).map fun (name, value) => s!"{name}: {value}\r\n"
  s!"HTTP/1.1 {r.status} {reason r.status}\r\n" ++ String.join fields ++ "\r\n"

end EventRelay.Http.Wire
