import EventRelay.Client
import EventRelay.Notice
import EventRelay.Text.Split

/-!
# Event streams on the wire

Each event is one frame: lines that name a field, then an empty line. A frame
has the retry hint if it is the first, a comment if the event is a replay, the
event's id and type where they can be written in one line, and one `data` line
for each line of the payload.

Control events have no `id` line, so that the last id a client knows keeps
naming application data.
-/

namespace EventRelay

/-- One line of a frame. -/
inductive FrameLine where
  /-- The delay before reconnecting, in milliseconds. -/
  | retry (delay : Nat)
  | comment (text : String)
  | id (value : String)
  | event (value : String)
  | data (value : String)
  deriving Repr, DecidableEq

namespace FrameLine

def text : FrameLine → String
  | retry delay => s!"retry: {delay}"
  | comment text => s!": {text}"
  | id value => s!"id: {value}"
  | event value => s!"event: {value}"
  | data value => s!"data: {value}"

end FrameLine

/-- The lines of one event. -/
abbrev Frame := List FrameLine

namespace Frame

/-- The lines of a frame, and the empty line that ends it. -/
def text (f : Frame) : String := String.join (f.map fun line => line.text ++ "\n") ++ "\n"

/-- A value that stands in one line, and is not ignored for a null character. -/
def isFieldSafe (value : String) : Bool :=
  value.toList.all fun c => c ≠ '\r' && c ≠ '\n' && c ≠ '\x00'

/-- Characters with every line ending written as a line feed. -/
def normalizeLineEndings : List Char → List Char
  | [] => []
  | '\r' :: '\n' :: rest => '\n' :: normalizeLineEndings rest
  | c :: rest => (if c = '\r' then '\n' else c) :: normalizeLineEndings rest

/-- One line for each line of the text, and none for the empty text. -/
def dataLines (text : String) : Frame :=
  if text = "" then []
  else
    (Text.splitChars '\n' (normalizeLineEndings text.toList)).map fun line =>
      .data (String.ofList line)

/-- The frame of an event, with the retry hint if there is one to give. -/
def ofEvent (e : Event) (retry : Option Nat) : Frame :=
  (retry.map FrameLine.retry).toList
    ++ (if e.replayed then [.comment "replayed"] else [])
    ++ (if !e.isControl && isFieldSafe e.id then [.id e.id] else [])
    ++ (if isFieldSafe e.type then [.event e.type] else [])
    ++ dataLines e.text

/-- What is reported about an event whose id or type cannot be written. -/
def notices (e : Event) : List Notice :=
  (if !e.isControl && !isFieldSafe e.id then [.unsafeId e.type] else [])
    ++ (if isFieldSafe e.type then [] else [.unsafeType e.id])

end Frame

/-- The body of an open stream. -/
structure EventStream where
  client : Client
  /-- The retry hint, until a frame has carried it. -/
  retry : Option Nat
  /-- The end of the stream has been seen. -/
  finished : Bool := false
  deriving Repr, DecidableEq

namespace EventStream

/-- The frames of events that are read one after the other. Only the first has
the retry hint. -/
def framesOf (retry : Option Nat) : List Event → List Frame
  | [] => []
  | e :: rest => Frame.ofEvent e retry :: rest.map fun e => Frame.ofEvent e none

end EventStream

end EventRelay
