/-!
# Reading integers

Decimal digits, with a sign in front if one is allowed. The text is read from
left to right, and the first thing that is wrong is reported.
-/

namespace EventRelay.Text

/-- What is wrong with the text of an integer. -/
inductive IntegerFault where
  | empty
  | invalidDigit
  | tooLarge
  | tooSmall
  deriving Repr, DecidableEq

def IntegerFault.message : IntegerFault → String
  | .empty => "cannot parse integer from empty string"
  | .invalidDigit => "invalid digit found in string"
  | .tooLarge => "number too large to fit in target type"
  | .tooSmall => "number too small to fit in target type"

/-- Adds digits to a number of at most `limit`. -/
def readDigits (limit : Nat) (outgrown : IntegerFault) (n : Nat) :
    List Char → Except IntegerFault Nat
  | [] => .ok n
  | c :: rest =>
    if !c.isDigit then .error .invalidDigit
    else
      let n := n * 10 + (c.toNat - 48)
      if limit < n then .error outgrown else readDigits limit outgrown n rest

/-- Reads digits of which there has to be one. -/
def readDigits1 (limit : Nat) (outgrown : IntegerFault) :
    List Char → Except IntegerFault Nat
  | [] => .error .invalidDigit
  | cs => readDigits limit outgrown 0 cs

/-- A natural number of at most `limit`. -/
def readNat (limit : Nat) (s : String) : Except IntegerFault Nat :=
  match s.toList with
  | [] => .error .empty
  | '+' :: rest => readDigits1 limit .tooLarge rest
  | cs => readDigits1 limit .tooLarge cs

/-- An integer between `-lowest` and `highest`. -/
def readInt (lowest highest : Nat) (s : String) : Except IntegerFault Int :=
  match s.toList with
  | [] => .error .empty
  | '+' :: rest => (readDigits1 highest .tooLarge rest).map Int.ofNat
  | '-' :: rest => (readDigits1 lowest .tooSmall rest).map fun n => -Int.ofNat n
  | cs => (readDigits1 highest .tooLarge cs).map Int.ofNat

end EventRelay.Text
