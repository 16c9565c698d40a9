/-!
# What the platform refuses

Sizes and times are unbounded here, those of the platform are not. Each `Fault`
is a request past one of its limits; a task that makes one ends.

The program is taken to be built with overflow checks on: a sum that does not fit
its type is such a request too, and does not wrap around.
-/

namespace EventRelay

/-- A request past a limit of the platform. -/
inductive Fault where
  /-- A session buffer larger than the address space. -/
  | bufferTooLarge
  /-- A queue with more places than a queue can count. -/
  | queueTooLarge
  /-- A queue length that does not fit a machine word. -/
  | lengthOverflow
  /-- A count that does not fit 32 bits. -/
  | countOverflow
  /-- A deadline past the end of the clock. -/
  | deadlineOverflow
  deriving Repr, DecidableEq

namespace Fault

def message : Fault → String
  | .bufferTooLarge => "capacity overflow"
  | .queueTooLarge =>
    "a semaphore may not have more than MAX_PERMITS permits (2305843009213693951)"
  | .lengthOverflow | .countOverflow => "attempt to add with overflow"
  | .deadlineOverflow => "overflow when adding duration to instant"

end Fault

namespace Limits

/-- Bytes that one buffered event takes. -/
def eventSize : Nat := 96

/-- The most entries a session buffer can have room for. -/
def maxBuffer : Nat := ((1 <<< 63) - 1) / eventSize

/-- The most places a queue can have. -/
def maxQueue : Nat := (1 <<< 61) - 1

/-- The largest machine word. -/
def maxWord : Nat := (1 <<< 64) - 1

/-- The largest count that 32 bits have room for. -/
def maxCount : Nat := (1 <<< 32) - 1

/-- What is wrong with a buffer that has room for `capacity` entries. -/
def bufferFault? (capacity : Nat) : Option Fault :=
  if maxBuffer < capacity then some .bufferTooLarge else none

end Limits

end EventRelay
