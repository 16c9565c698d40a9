/-!
# A bounded buffer that forgets its oldest entry

A `Ring` keeps at most `capacity` entries in an array of slots that is written
round and round: the cursor names the slot the next entry goes to, and the
occupied slots are the `length` slots before it. A full ring makes room by
giving up its oldest entry, and a ring of capacity zero keeps nothing.

`Ring.toList`, oldest entry first, is the view the rest of the library reads.
-/

namespace EventRelay

/-- Entries in slots that are reused in turn. -/
structure Ring (α : Type) where
  slots : List (Option α)
  /-- The slot the next entry is written to. -/
  cursor : Nat
  /-- How many entries are held. -/
  length : Nat
  deriving Repr, DecidableEq

namespace Ring

variable {α : Type}

/-- A ring with no entries and room for `capacity` of them. -/
def empty (capacity : Nat) : Ring α :=
  ⟨List.replicate capacity none, 0, 0⟩

def capacity (r : Ring α) : Nat := r.slots.length

def isEmpty (r : Ring α) : Bool := r.length == 0

/-- The slot holding the oldest entry: `length` slots before the cursor. -/
def oldest (r : Ring α) : Nat := (r.cursor + r.capacity - r.length) % r.capacity

/-- The entry in a slot, if the slot exists and is occupied. -/
def entry? (r : Ring α) (slot : Nat) : Option α := r.slots[slot]?.join

/-- Entries from oldest to newest. -/
def toList (r : Ring α) : List α :=
  (List.range r.length).filterMap fun offset => r.entry? ((r.oldest + offset) % r.capacity)

/-- Writes `a` at the cursor and hands back the entry that was there, which is
the oldest one of a full ring. -/
def push (r : Ring α) (a : α) : Ring α × Option α :=
  if r.capacity = 0 then (r, none)
  else
    let evicted := r.entry? r.cursor
    ({ slots := r.slots.set r.cursor (some a)
       cursor := (r.cursor + 1) % r.capacity
       length := if evicted.isNone then r.length + 1 else r.length }, evicted)

/-- Takes the oldest entry out. -/
def pop (r : Ring α) : Ring α × Option α :=
  if r.length = 0 then (r, none)
  else ({ r with slots := r.slots.set r.oldest none, length := r.length - 1 }, r.entry? r.oldest)

/-- Takes out the oldest `count` entries, or all of them if there are fewer. -/
def discard (r : Ring α) (count : Nat) : Ring α :=
  Nat.repeat (fun r => r.pop.1) (min count r.length) r

end Ring

end EventRelay
