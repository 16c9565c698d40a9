import EventRelay.Text.Split

/-!
# Request targets

The target of a request is a path with an optional query (`/sse?topics=a`), a
whole URI (`https://host/sse`), a host alone, or `*`. A fragment is left out.
-/

namespace EventRelay.Http

/-- The parts of a request target that requests are told apart by. -/
structure Uri where
  scheme : Option String := none
  path : String
  /-- What follows the question mark, as it stands. -/
  query : Option String := none
  deriving Repr, DecidableEq

namespace Uri

/-- The most bytes a target may have. -/
def maxLength : Nat := 65534

/-- The most characters a scheme may have. -/
def maxScheme : Nat := 64

/-- Characters of a path. Quotes and braces should be escaped but often are not. -/
def isPathChar (c : Char) : Bool :=
  let n := c.toNat
  n = 0x21 || n = 0x22 || (0x24 ≤ n && n ≤ 0x3B) || n = 0x3D || (0x40 ≤ n && n ≤ 0x5F)
    || (0x61 ≤ n && n ≤ 0x7E) || 0x80 ≤ n

/-- Characters of a query. -/
def isQueryChar (c : Char) : Bool :=
  let n := c.toNat
  n = 0x21 || (0x24 ≤ n && n ≤ 0x3B) || n = 0x3D || (0x3F ≤ n && n ≤ 0x7E) || 0x80 ≤ n

/-- Characters of a scheme. A tilde does not belong there, but is let through. -/
def isSchemeChar (c : Char) : Bool :=
  c.isAlphanum || c = '+' || c = '-' || c = '.' || c = '~'

/-- Characters of a host with its user and port, other than those that
`Authority.next` looks at one by one. -/
def isHostChar (c : Char) : Bool := c.isAlphanum || "!$&'()*+,-.;=_~".toList.contains c

/-- What has been seen of a host with its user and port. Colons and percent signs
are forgotten where the user ends, and where a bracketed address does. -/
structure Authority where
  colons : Nat := 0
  percent : Bool := false
  opened : Bool := false
  closed : Bool := false
  /-- The last character was the one that ends the user. -/
  atUser : Bool := false
  deriving Repr, DecidableEq

/-- The most colons between two places where they are forgotten. -/
def Authority.maxColons : Nat := 8

/-- Looks at one character, if it may stand there. -/
def Authority.next (a : Authority) (c : Char) : Option Authority :=
  let a := { a with atUser := false }
  if c = ':' then
    if a.colons < maxColons then some { a with colons := a.colons + 1 } else none
  else if c = '[' then
    if a.percent || a.opened then none else some { a with opened := true }
  else if c = ']' then
    if a.opened && !a.closed then some { a with closed := true, colons := 0, percent := false }
    else none
  else if c = '@' then some { a with colons := 0, percent := false, atUser := true }
  else if c = '%' then some { a with percent := true }
  else if isHostChar c then some a
  else none

/-- Whether a host with an optional user and port is well formed: a percent sign
stands only in the user or between brackets, and outside of both there is one
colon at most. -/
def isAuthority (cs : List Char) : Bool :=
  match cs.foldlM Authority.next {} with
  | none => false
  | some a => a.opened == a.closed && a.colons ≤ 1 && !a.percent && !a.atUser

/-- A path with an optional query, in which nothing but these characters stands. -/
def readPath? (scheme : Option String) (cs : List Char) : Option Uri :=
  let cs := cs.takeWhile (· ≠ '#')
  let path := cs.takeWhile (· ≠ '?')
  let rest := cs.drop path.length
  if path.all isPathChar && (rest.drop 1).all isQueryChar then
    some
      { scheme
        path := if path.isEmpty then "/" else String.ofList path
        query := if rest.isEmpty then none else some (String.ofList (rest.drop 1)) }
  else none

/-- The scheme of a whole URI and what follows the slashes after it. -/
def splitScheme? (cs : List Char) : Option (List Char × List Char) :=
  let scheme := cs.takeWhile isSchemeChar
  match cs.drop scheme.length with
  | ':' :: '/' :: '/' :: rest => some (scheme, rest)
  | _ => none

/-- Schemes in small letters if they are known. -/
def schemeName (scheme : List Char) : String :=
  let lower := String.ofList (scheme.map Char.toLower)
  if lower = "http" || lower = "https" then lower else String.ofList scheme

/-- Reads a request target. -/
def read? (s : String) : Option Uri :=
  let cs := s.toList
  if maxLength < s.utf8ByteSize then none
  else
    match cs with
    | [] => none
    | ['*'] => some { path := "*" }
    | '/' :: _ => readPath? none cs
    | _ =>
      match splitScheme? cs with
      | none => if isAuthority cs then some { path := "" } else none
      | some (scheme, rest) =>
        let authority := rest.takeWhile fun c => c ≠ '/' && c ≠ '?' && c ≠ '#'
        if maxScheme < scheme.length || authority.isEmpty || !isAuthority authority then none
        else readPath? (some (schemeName scheme)) (rest.drop authority.length)

end Uri

end EventRelay.Http
