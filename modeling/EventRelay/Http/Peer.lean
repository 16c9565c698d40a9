import EventRelay.Text.Integer
import EventRelay.Text.Split

/-!
# Peer addresses

The address and port at the other end of a connection, as text that names each
address in one way only: an address of sixteen bytes leaves out its longest run
of zero groups.
-/

namespace EventRelay.Http

/-- The other end of a connection. -/
inductive Peer where
  | v4 (octets : List Nat) (port : Nat)
  | v6 (groups : List Nat) (zone port : Nat)
  deriving Repr, DecidableEq

namespace Peer

/-! ## Writing -/

def octetsText (octets : List Nat) : String := String.intercalate "." (octets.map toString)

def groupsText (groups : List Nat) : String :=
  String.intercalate ":" (groups.map fun g => String.ofList (Nat.toDigits 16 g))

/-- The length of the run of zeros that starts at each place. -/
def zeroRuns : List Nat → List Nat
  | [] => []
  | g :: rest =>
    let runs := zeroRuns rest
    (if g = 0 then runs.headD 0 + 1 else 0) :: runs

/-- The groups of an address, with the first of its longest runs of at least two
zeros left out. An address that embeds one of four bytes shows it. -/
def v6Text (groups : List Nat) : String :=
  match groups with
  | [0, 0, 0, 0, 0, 0xFFFF, high, low] =>
    "::ffff:" ++ octetsText [high / 256, high % 256, low / 256, low % 256]
  | _ =>
    let runs := zeroRuns groups
    let longest := runs.foldl max 0
    if longest ≤ 1 then groupsText groups
    else
      let start := runs.idxOf longest
      groupsText (groups.take start) ++ "::" ++ groupsText (groups.drop (start + longest))

def text : Peer → String
  | .v4 octets port => s!"{octetsText octets}:{port}"
  | .v6 groups 0 port => s!"[{v6Text groups}]:{port}"
  | .v6 groups zone port => s!"[{v6Text groups}%{zone}]:{port}"

/-! ## Reading -/

def word? (limit : Nat) (s : String) : Option Nat :=
  if s.toList.all Char.isDigit then (Text.readNat limit s).toOption else none

/-- A byte, without zeros in front. -/
def octet? (s : String) : Option Nat :=
  if s.length = 1 || !s.startsWith "0" then word? 255 s else none

def octets? (s : String) : Option (List Nat) := do
  let octets ← (Text.split '.' s).mapM octet?
  if octets.length = 4 then some octets else none

/-- The value of a hexadecimal digit. -/
def hexValue? (c : Char) : Option Nat :=
  if c.isDigit then some (c.toNat - 48)
  else if 'a' ≤ c && c ≤ 'f' then some (c.toNat - 87)
  else if 'A' ≤ c && c ≤ 'F' then some (c.toNat - 55)
  else none

/-- One to four hexadecimal digits. -/
def group? (s : String) : Option Nat :=
  if s = "" || 4 < s.length then none
  else (s.toList.mapM hexValue?).map (·.foldl (fun n d => n * 16 + d) 0)

/-- Groups divided by colons, the last two perhaps written as an address of four
bytes. -/
def groups? : List String → Option (List Nat)
  | [] => some []
  | [last] =>
    match octets? last with
    | some [a, b, c, d] => some [a * 256 + b, c * 256 + d]
    | _ => (group? last).map ([·])
  | s :: rest => do some ((← group? s) :: (← groups? rest))

/-- The text on both sides of the first pair of colons. -/
def splitGap? : List Char → Option (List Char × List Char)
  | ':' :: ':' :: rest => some ([], rest)
  | c :: rest => (splitGap? rest).map fun (before, after) => (c :: before, after)
  | [] => none

def side? (cs : List Char) : Option (List Nat) :=
  if cs.isEmpty then some [] else groups? (Text.split ':' (String.ofList cs))

def v6Groups? (s : String) : Option (List Nat) := do
  match splitGap? s.toList with
  | none =>
    let groups ← side? s.toList
    if groups.length = 8 then some groups else none
  | some (before, after) =>
    let head ← side? before
    let tail ← side? after
    let written := head.length + tail.length
    if written < 8 && !before.contains '.' then
      some (head ++ List.replicate (8 - written) 0 ++ tail)
    else none

/-- Reads an address with its port. -/
def read? (s : String) : Option Peer :=
  match s.toList with
  | '[' :: rest => do
    let (inside, after) ← Text.splitOnce? ']' (String.ofList rest)
    let (address, zone) := (Text.splitOnce? '%' inside).getD (inside, "0")
    match after.toList with
    | ':' :: port =>
      some (.v6 (← v6Groups? address) (← word? 0xFFFFFFFF zone)
        (← word? 65535 (String.ofList port)))
    | _ => none
  | _ => do
    let (address, port) ← Text.splitOnce? ':' s
    some (.v4 (← octets? address) (← word? 65535 port))

end Peer

end EventRelay.Http
