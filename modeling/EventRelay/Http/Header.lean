import EventRelay.Text.Blank
import EventRelay.Text.Utf8

/-!
# Header fields

A field's name is a token, in small letters; its value is bytes. Values are read
as text only if all of their bytes are visible ASCII characters, blanks or tabs.
-/

namespace EventRelay.Http

/-- Characters of methods and field names. -/
def isTokenChar (c : Char) : Bool :=
  c.isAlphanum || "!#$%&'*+-.^_`|~".toList.contains c

def isToken (s : String) : Bool := s ≠ "" && s.toList.all isTokenChar

/-- The most characters a field name may have. -/
def maxFieldName : Nat := 65535

def isFieldName (s : String) : Bool := isToken s && s.length ≤ maxFieldName

/-- Bytes a field value may contain. -/
def isValueByte (b : UInt8) : Bool := (32 ≤ b && b ≠ 127) || b == 9

def isFieldValue (value : Bytes) : Bool := value.all isValueByte

/-- Bytes that may be read as text. -/
def isTextByte (b : UInt8) : Bool := (32 ≤ b && b < 127) || b == 9

/-- Field names with their values, in the order in which they came. -/
abbrev Headers := List (String × Bytes)

/-- What is wrong with texts that should be fields. -/
inductive FieldFault where
  | name
  | value
  deriving Repr, DecidableEq

/-- Fields from text, if every name and value is one. All values are looked at before
the first name is. -/
def Headers.ofTexts (fields : List (String × String)) : Except FieldFault Headers :=
  if !fields.all fun field => isFieldValue (Utf8.encode field.2) then .error .value
  else if !fields.all fun field => isFieldName field.1 then .error .name
  else
    .ok <| fields.map fun (name, value) =>
      (String.ofList (name.toList.map Char.toLower), Utf8.encode value)

/-- The values of a field, in order. -/
def Headers.all (h : Headers) (name : String) : List Bytes :=
  h.filterMap fun field => if field.1 = name then some field.2 else none

/-- A value as text, if it may be read as such. -/
def fieldText? (value : Bytes) : Option String :=
  if value.all isTextByte then some (Utf8.decode value) else none

/-- The first value of a field as text without blanks around it, if any is left. -/
def Headers.text? (h : Headers) (name : String) : Option String :=
  (((h.all name).head?.bind fieldText?).map Text.trim).filter (· ≠ "")

end EventRelay.Http
