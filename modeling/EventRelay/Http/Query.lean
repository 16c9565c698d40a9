import EventRelay.Text.Split
import EventRelay.Text.Hex

/-!
# Queries

The query of a request target as named fields: fields are divided by `&`, a name
from its value by the first `=`; in both a plus sign is a blank, and a percent
sign with two digits is a byte.
-/

namespace EventRelay.Http.Query

/-- Bytes with escapes resolved. A percent sign that no two digits follow stands
for itself. -/
def unescape : Bytes → Bytes
  | [] => []
  | 37 :: high :: low :: rest =>
    match Hex.value? high, Hex.value? low with
    | some h, some l => (h * 16 + l) :: unescape rest
    | _, _ => 37 :: unescape (high :: low :: rest)
  | b :: rest => (if b = 43 then 32 else b) :: unescape rest

def decode (s : String) : String := Utf8.decode (unescape (Utf8.encode s))

/-- The fields of a query, in order. A part without `=` is a name with an empty
value, and an empty part is nothing. -/
def fields (query : String) : List (String × String) :=
  ((Text.split '&' query).filter (· ≠ "")).map fun part =>
    let (name, value) := (Text.splitOnce? '=' part).getD (part, "")
    (decode name, decode value)

/-- The first of the known names that is given for the second time. -/
def firstRepeated? (known : List String) (fields : List (String × String)) : Option String :=
  let names := (fields.map (·.1)).filter known.contains
  let positions := (List.range names.length).filter fun i =>
    match names[i]? with
    | some name => (names.take i).contains name
    | none => false
  positions.head?.bind fun i => names[i]?

end EventRelay.Http.Query
