/-!
# Text in bytes

Characters are written in one to four bytes. Reading never fails: a stretch of
bytes that no character is written with is read as one replacement character,
where a stretch is the longest beginning of a well-formed sequence, or a single
byte that can begin none.
-/

namespace EventRelay

/-- Uninterpreted bytes, as carried by an event. -/
abbrev Bytes := List UInt8

namespace Utf8

/-- The bytes of a text. -/
def encode (s : String) : Bytes := s.toList.flatMap String.utf8EncodeChar

/-- What a first byte promises: how many bytes follow it, and the range of the
first of them. The narrower ranges rule out overlong forms, surrogates and code
points past the last one. -/
def lead? (b : UInt8) : Option (Nat × UInt8 × UInt8) :=
  if b < 0x80 then some (0, 0, 0)
  else if b < 0xC2 then none
  else if b < 0xE0 then some (1, 0x80, 0xBF)
  else if b = 0xE0 then some (2, 0xA0, 0xBF)
  else if b = 0xED then some (2, 0x80, 0x9F)
  else if b < 0xF0 then some (2, 0x80, 0xBF)
  else if b = 0xF0 then some (3, 0x90, 0xBF)
  else if b < 0xF4 then some (3, 0x80, 0xBF)
  else if b = 0xF4 then some (3, 0x80, 0x8F)
  else none

/-- The following bytes, at most `n`, as far as they are in range: the first
between `lo` and `hi`, the others anywhere in the range of following bytes. -/
def following : Nat → UInt8 → UInt8 → Bytes → Bytes
  | 0, _, _, _ => []
  | _, _, _, [] => []
  | n + 1, lo, hi, b :: rest =>
    if lo ≤ b ∧ b ≤ hi then b :: following n 0x80 0xBF rest else []

/-- The code point written by a first byte and the bytes that follow it: the
first byte gives its low bits, fewer the more bytes follow, and each following
byte six more. -/
def codePoint (first : UInt8) (rest : Bytes) : Nat :=
  let bits := if rest.isEmpty then first.toNat else first.toNat % (1 <<< (6 - rest.length))
  rest.foldl (fun n b => n * 64 + b.toNat % 64) bits

/-- The characters written by the bytes, `none` for a stretch that writes none. -/
def read : Bytes → List (Option Char)
  | [] => []
  | b :: rest =>
    match lead? b with
    | none => none :: read rest
    | some (n, lo, hi) =>
      let tail := following n lo hi rest
      (if tail.length = n then some (Char.ofNat (codePoint b tail)) else none)
        :: read (rest.drop tail.length)
  termination_by bs => bs.length
  decreasing_by all_goals (simp only [List.length_cons, List.length_drop]; omega)

/-- Whether the bytes are a text. -/
def isValid (bytes : Bytes) : Bool := (read bytes).all Option.isSome

/-- The text of the bytes, with U+FFFD for what is not text. -/
def decode (bytes : Bytes) : String :=
  String.ofList ((read bytes).map fun c => c.getD '\uFFFD')

end Utf8

end EventRelay
