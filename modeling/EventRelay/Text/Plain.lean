/-!
# Plain text

Text as it is shown where terminal control sequences have no meaning: the
sequences are left out, and so are control characters other than blanks.

A sequence is told by its characters below 128. Those above do not belong to one
and are left out with it, but for the byte 156 in their encoding: it is the old
one-byte end of a string.
-/

namespace EventRelay.Text

/-- Where a reader of terminal text stands. -/
inductive TerminalState where
  | ground
  /-- After the escape character. -/
  | escape
  /-- After the escape character and characters that qualify the next. -/
  | qualified
  /-- In the parameters of a control sequence. -/
  | control
  /-- In a string for the operating system, ended by a bell. -/
  | command
  /-- At the start of a string for the device. -/
  | device
  /-- In the parameters of a string for the device. -/
  | deviceParameters
  /-- After the parameters, at characters that qualify the next. -/
  | deviceQualified
  /-- In any string, ended by an escape character or by its old end. -/
  | body
  deriving Repr, DecidableEq

/-- Blanks that are shown wherever they stand. -/
def isShownBlank (c : Char) : Bool :=
  c = '\t' || c = '\n' || c = '\x0c' || c = '\r'

/-- Control characters. -/
def isControl (c : Char) : Bool := c < ' ' || c = '\x7f'

/-- Characters outside of ASCII. -/
def isForeign (c : Char) : Bool := '\x7f' < c

/-- The byte that ends a string. -/
def stringEnd : UInt8 := 0x9C

namespace TerminalState

/-- States in which the characters of a sequence are awaited, not those of a string. A
control character that comes between them is not part of the sequence. -/
def isInterruptible : TerminalState → Bool
  | .escape | .qualified | .control => true
  | _ => false

/-- The state of the reader of a string for the device after a character that is no
control character. -/
def nextInDevice (s : TerminalState) (c : Char) : TerminalState :=
  if '@' ≤ c then .body
  else if c < '0' then .deviceQualified
  else
    match s with
    | .device => .deviceParameters
    | .deviceParameters => if c < '<' then .deviceParameters else .body
    | _ => .body

/-- The state after a character of a sequence, which is not shown. -/
def next (s : TerminalState) (c : Char) : TerminalState :=
  if c = '\x1b' then .escape
  else if c = '\x18' || c = '\x1a' then .ground
  else if isForeign c then
    if s = .body && (String.utf8EncodeChar c).contains stringEnd then .ground else s
  else if isControl c then
    if s = .command && c = '\x07' then .ground else s
  else
    match s with
    | .ground | .command | .body => s
    | .escape =>
      if c < '0' then .qualified
      else if c = '[' then .control
      else if c = ']' then .command
      else if c = 'P' then .device
      else if c = 'X' || c = '^' || c = '_' then .body
      else .ground
    | .qualified => if c < '0' then .qualified else .ground
    | .control => if c < '@' then .control else .ground
    | .device | .deviceParameters | .deviceQualified => s.nextInDevice c

end TerminalState

/-- What a blank does to the sequence in whose middle it stands. -/
inductive Interruption where
  /-- The sequence is over. -/
  | ends
  /-- Text is shown until a control character comes, and then the sequence goes on. -/
  | suspends
  deriving Repr, DecidableEq

/-- A reader of terminal text. -/
structure TerminalReader where
  state : TerminalState := .ground
  /-- A sequence is unfinished, and text is shown all the same. -/
  suspended : Bool := false
  deriving Repr, DecidableEq

namespace TerminalReader

/-- Text is shown. -/
def isShowing (r : TerminalReader) : Bool := r.state = .ground || r.suspended

/-- The reader after a character, and whether the character is shown. -/
def next (i : Interruption) (r : TerminalReader) (c : Char) : TerminalReader × Bool :=
  if isShownBlank c && (r.isShowing || r.state.isInterruptible) then
    match i with
    | .ends => ({}, true)
    | .suspends => ({ r with suspended := r.state ≠ .ground }, true)
  else if r.isShowing && isForeign c then ({}, true)
  else if r.isShowing && !isControl c then (r, true)
  else ({ state := r.state.next c }, false)

/-- The characters that are shown of a terminal text. -/
def shown (i : Interruption) (r : TerminalReader) : List Char → List Char
  | [] => []
  | c :: rest =>
    match r.next i c with
    | (r, true) => c :: shown i r rest
    | (r, false) => shown i r rest

end TerminalReader

/-- What is shown of a text. -/
def shown (i : Interruption) (s : String) : String :=
  String.ofList (({} : TerminalReader).shown i s.toList)

/-- A text that a terminal shows in another style. -/
def marked (s : String) : String := s!"\x1b[33m{s}\x1b[0m"

/-- The first line of a text, without its ending. -/
def firstLine (s : String) : String :=
  let line := s.toList.takeWhile (· ≠ '\n')
  let line :=
    if line.length < s.length && line.getLast? = some '\r' then line.dropLast else line
  String.ofList line

end EventRelay.Text
