/-!
# Time

The clock is the platform's, which had been running for some time when the run
began. It counts whole milliseconds, and spans of time are counted in whole
milliseconds too, so both are natural numbers. The clock only moves when it is
told to: smoothly, stopping wherever something is due (`Clock.glide`), or at
once.

A `Ticker` is a timer that fires once a period; how a late tick moves the
following ones is said by `Ticker.fire`.
-/

namespace EventRelay

/-! ## Spans of time -/

namespace Duration

def ofSeconds (seconds : Nat) : Nat := seconds * 1000

/-- Whole seconds in a span. -/
def seconds (d : Nat) : Nat := d / 1000

/-- A fraction of three decimal places, without the zeros at its end. -/
def fraction (thousandths : Nat) : String :=
  let digits := [thousandths / 100, thousandths / 10 % 10, thousandths % 10]
  match (digits.reverse.dropWhile (· == 0)).reverse with
  | [] => ""
  | kept => "." ++ String.ofList (kept.map Nat.digitChar)

/-- Seconds with the decimals they need, milliseconds for less than a second,
and nothing at all counted in nanoseconds. -/
def text (d : Nat) : String :=
  if d = 0 then "0ns"
  else if d < 1000 then s!"{d}ms"
  else s!"{d / 1000}{fraction (d % 1000)}s"

end Duration

/-! ## Moments -/

namespace Clock

/-- The first moment the clock cannot name. It counts seconds in 63 bits. -/
def horizon : Nat := (1 <<< 63) * 1000

/-- The moment a span after another, if the clock can name it. -/
def after (now span : Nat) : Option Nat :=
  if now + span < horizon then some (now + span) else none

/-- Moves smoothly from `now` to `target`, stopping at every moment on the way
that `next` names. At each stop, and at the end, `step` sets the clock and does
what is due then. -/
def glide {σ : Type} (next : σ → Option Nat) (step : Nat → σ → σ) (target now : Nat) (s : σ) : σ :=
  match next s with
  | none => step target s
  | some t =>
    if now < t ∧ t < target then glide next step target t (step t s) else step target s
  termination_by target - now

end Clock

/-! ## Periodic timers -/

/-- A timer that fires once a period. -/
structure Ticker where
  period : Nat
  /-- The next tick; `none` if the clock cannot name it, which ends the timer's task. -/
  due : Option Nat
  deriving Repr, DecidableEq

namespace Ticker

/-- The shortest period a timer keeps. -/
def minPeriod : Nat := 10

/-- How late a tick may be before the ticks after it are moved. -/
def tolerance : Nat := 5

/-- A ticker whose first tick comes one period from `now`. -/
def start (period now : Nat) : Ticker :=
  let period := max period minPeriod
  ⟨period, Clock.after now period⟩

def isDue (t : Ticker) (now : Nat) : Bool := t.due.any (· ≤ now)

/-- The ticker after the tick that is due at `now` has fired. The next tick is
one period after this one was due, or one period from now if this one is late. -/
def fire (t : Ticker) (now : Nat) : Ticker :=
  match t.due with
  | none => t
  | some due =>
    let base := if due + tolerance < now then now else due
    { t with due := Clock.after base t.period }

end Ticker

end EventRelay
