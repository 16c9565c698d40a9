import EventRelay.Text.Utf8

/-!
# Hexadecimal text

Bytes written with two digits each. Writing uses lower-case digits, reading
takes either case.
-/

namespace EventRelay.Hex

/-- Why a text is not the digits of some bytes. -/
inductive Fault where
  /-- A digit is left over. -/
  | oddLength
  /-- The byte at `position` of the text is not a digit. -/
  | invalid (byte : UInt8) (position : Nat)
  deriving Repr, DecidableEq

/-- Bytes shown as themselves inside quotes are the printable ones of the first
256 code points, less the quote and the backslash. -/
def quoted (b : UInt8) : String :=
  let n := b.toNat
  if n = 0 then "\\0"
  else if n = 9 then "\\t"
  else if n = 10 then "\\n"
  else if n = 13 then "\\r"
  else if n = 39 then "\\'"
  else if n = 92 then "\\\\"
  else if n < 32 || (127 ≤ n && n ≤ 160) || n = 0xAD then
    "\\u\x7b" ++ String.ofList (Nat.toDigits 16 n) ++ "\x7d"
  else String.singleton (Char.ofNat n)

def Fault.message : Fault → String
  | .oddLength => "Odd number of digits"
  | .invalid b position => s!"Invalid character '{quoted b}' at position {position}"

def digit (n : Nat) : Char := Nat.digitChar n

/-- Two lower-case digits for each byte. -/
def encode (bytes : Bytes) : String :=
  String.ofList (bytes.flatMap fun b => [digit (b.toNat / 16), digit (b.toNat % 16)])

/-- The value of a digit of either case. -/
def value? (b : UInt8) : Option UInt8 :=
  if 48 ≤ b ∧ b ≤ 57 then some (b - 48)
  else if 65 ≤ b ∧ b ≤ 70 then some (b - 55)
  else if 97 ≤ b ∧ b ≤ 102 then some (b - 87)
  else none

/-- Reads digits in pairs; `position` is where the first of them stands. -/
def readPairs (position : Nat) : Bytes → Except Fault Bytes
  | high :: low :: rest =>
    match value? high, value? low with
    | none, _ => .error (.invalid high position)
    | _, none => .error (.invalid low (position + 1))
    | some h, some l => (readPairs (position + 2) rest).map ((h * 16 + l) :: ·)
  | _ => .ok []

/-- The bytes whose digits the text is. A left-over digit is reported before
any character that is no digit. -/
def decode (s : String) : Except Fault Bytes :=
  let bytes := Utf8.encode s
  if bytes.length % 2 = 1 then .error .oddLength else readPairs 0 bytes

end EventRelay.Hex
