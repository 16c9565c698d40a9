/-!
# Identifiers

Sessions and events are named by text, since clients present these names again
when they come back. Live connections are named inside the relay only.

Names are made from numbers. Events and connections are numbered by the relay, so
different ones get different names, and later events get later names. The number
of a session comes from a random source, so that nobody can guess its name.
-/

namespace EventRelay

/-- The name of a session. -/
abbrev SessionId := String

/-- The name of an event, chosen by its producer or made by the relay. -/
abbrev EventId := String

/-- The name of one live connection. -/
structure ClientId where
  serial : Nat
  deriving Repr, DecidableEq

/-- The last `width` hexadecimal digits of a number, with zeros in front. -/
def hexDigits (width n : Nat) : List Char :=
  (List.range width).reverse.map fun place => Nat.digitChar ((n >>> (4 * place)) % 16)

/-- Groups of eight and four digits followed by `tail`. -/
def groupedDigits (n : Nat) (tail : String) : String :=
  let digits := hexDigits 12 n
  String.ofList (digits.take 8) ++ "-" ++ String.ofList (digits.drop 8) ++ tail

/-- The session id that the low 128 bits of a number make. -/
def SessionId.ofNat (n : Nat) : SessionId := String.ofList (hexDigits 32 n)

/-- A time-ordered event id. -/
def EventId.ofSerial (n : Nat) : EventId := groupedDigits n "-7000-8000-000000000000"

def ClientId.text (c : ClientId) : String := groupedDigits c.serial "-4000-8000-000000000000"

end EventRelay
