/-!
# JSON values

Values and their compact text: no blanks, object members ordered by name, and
only those characters escaped that have to be.
-/

namespace EventRelay

/-- A JSON value whose numbers are integers. -/
inductive Json where
  | null
  | bool (b : Bool)
  | int (n : Int)
  | str (s : String)
  | arr (items : List Json)
  | obj (members : List (String × Json))
  deriving Repr, Inhabited

namespace Json

/-- The character as it stands inside a quoted string. Control characters have
a short escape or four hexadecimal digits. -/
def escape (c : Char) : List Char :=
  if c = '"' then ['\\', '"']
  else if c = '\\' then ['\\', '\\']
  else if c = '\n' then ['\\', 'n']
  else if c = '\r' then ['\\', 'r']
  else if c = '\t' then ['\\', 't']
  else if c = '\x08' then ['\\', 'b']
  else if c = '\x0c' then ['\\', 'f']
  else if c.toNat < 0x20 then
    ['\\', 'u', '0', '0', Nat.digitChar (c.toNat / 16), Nat.digitChar (c.toNat % 16)]
  else [c]

/-- A text in quotes. -/
def quote (s : String) : String :=
  "\"" ++ String.ofList (s.toList.flatMap escape) ++ "\""

/-- Members whose names are in ascending order, by code points. -/
def sortMembers (members : List (String × String)) : List (String × String) :=
  members.mergeSort fun a b => a.1 ≤ b.1

mutual
/-- The compact text of a value. -/
def compact : Json → String
  | .null => "null"
  | .bool true => "true"
  | .bool false => "false"
  | .int n => toString n
  | .str s => quote s
  | .arr items => "[" ++ String.intercalate "," (compactItems items) ++ "]"
  | .obj members =>
    let written := (sortMembers (compactMembers members)).map fun m => quote m.1 ++ ":" ++ m.2
    "\x7b" ++ String.intercalate "," written ++ "\x7d"

def compactItems : List Json → List String
  | [] => []
  | item :: rest => compact item :: compactItems rest

def compactMembers : List (String × Json) → List (String × String)
  | [] => []
  | (name, value) :: rest => (name, compact value) :: compactMembers rest
end

/-- The member of an object, if the value is one and has it. -/
def member? (name : String) : Json → Option Json
  | .obj members => members.lookup name
  | _ => none

def string? : Json → Option String
  | .str s => some s
  | _ => none

end Json

end EventRelay
