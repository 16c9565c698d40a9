import EventRelay.Proofs.Ring

/-!
# The ring as a bounded queue

A bounded queue is a list, oldest entry first, that never grows past its capacity. What it
does when it is asked for something is written down in `Queue.apply`, without slots or a
cursor. `Ring.runs_as_queue` says that a ring answers every sequence of requests as the queue does
and holds what the queue holds, and that its slots stay in order on the way (`Ring.Laid`).

The relation between the two is `Ring.Holds`; `Holds.apply` carries it over one request.
-/

namespace EventRelay

/-- What a bounded queue is asked for. -/
inductive Queue.Request (α : Type) where
  | push (a : α)
  | pop
  | discard (count : Nat)

namespace Queue

variable {α : Type}

/-- The queue after a request, and the entry that is handed back. A full queue makes room by
giving up its oldest entry; one without capacity keeps nothing. -/
def apply (capacity : Nat) (l : List α) : Request α → List α × Option α
  | .push a =>
    if l.length < capacity then (l ++ [a], none)
    else if 0 < capacity then (l.tail ++ [a], l.head?)
    else (l, none)
  | .pop => (l.tail, l.head?)
  | .discard count => (l.drop (min count l.length), none)

/-- The queue after some requests, and what was handed back, request by request. -/
def run (capacity : Nat) : List (Request α) → List α → List α × List (Option α)
  | [], l => (l, [])
  | q :: qs, l =>
    let (l, a) := apply capacity l q
    let (l, as) := run capacity qs l
    (l, a :: as)

end Queue

namespace Ring

open Queue (Request)

variable {α : Type} {r : Ring α} {l : List α}

/-- The ring after a request, and the entry that is handed back. -/
def apply (r : Ring α) : Request α → Ring α × Option α
  | .push a => r.push a
  | .pop => r.pop
  | .discard count => (r.discard count, none)

/-- The ring after some requests, and what was handed back, request by request. -/
def run : List (Request α) → Ring α → Ring α × List (Option α)
  | [], r => (r, [])
  | q :: qs, r =>
    let (r, a) := apply r q
    let (r, as) := run qs r
    (r, a :: as)

/-! ## One request -/

/-- What is taken out is the oldest entry. -/
theorem Holds.pop_taken (h : r.Holds l) : r.pop.2 = l.head? := by
  have hlen := h.length_eq
  rw [Ring.pop]
  split
  · next h0 => rw [List.eq_nil_of_length_eq_zero (hlen.symm.trans h0), List.head?_nil]
  · next h0 =>
      have hle := h.length_le
      have hpos : 0 < r.capacity := by omega
      have hentry := h.entry 0 hpos
      rw [Nat.add_zero, Nat.mod_eq_of_lt (h.oldest_lt hpos)] at hentry
      rw [hentry, List.head?_eq_getElem?]

theorem capacity_apply (r : Ring α) (q : Request α) : (r.apply q).1.capacity = r.capacity := by
  cases q with
  | push a => exact capacity_push r a
  | pop => exact capacity_pop r
  | discard count => exact capacity_discard r count

/-- **The ring does what the queue does**, one request on. -/
theorem Holds.apply (h : r.Holds l) (q : Request α) :
    (r.apply q).1.Holds (Queue.apply r.capacity l q).1 ∧
      (r.apply q).2 = (Queue.apply r.capacity l q).2 := by
  have hle := h.length_le
  cases q with
  | push a =>
      have hevicted := h.push_evicted a
      rw [Queue.apply]
      by_cases hroom : l.length < r.capacity
      · rw [if_pos hroom] at hevicted ⊢
        exact ⟨h.push_room a hroom, hevicted⟩
      · rw [if_neg hroom] at hevicted ⊢
        cases l with
        | nil =>
            have h0 : r.capacity = 0 := Nat.eq_zero_of_not_pos hroom
            rw [if_neg (Nat.not_lt.mpr (Nat.le_of_eq h0)), Ring.apply, Ring.push, if_pos h0]
            exact ⟨h, rfl⟩
        | cons b l =>
            rw [if_pos (Nat.lt_of_lt_of_le (Nat.succ_pos _) hle)]
            exact ⟨h.push_full a (by omega), hevicted⟩
  | pop => exact ⟨h.pop, h.pop_taken⟩
  | discard count =>
      refine ⟨?_, rfl⟩
      have hdrop := h.discard (min count l.length)
      rw [Ring.discard, h.length_eq, Nat.min_eq_left (Nat.min_le_right ..)] at hdrop
      rw [Ring.apply, Ring.discard, h.length_eq]
      exact hdrop

/-- **The ring does what the queue does**, any number of requests on. -/
theorem Holds.run (h : r.Holds l) (qs : List (Request α)) :
    (Ring.run qs r).1.Holds (Queue.run r.capacity qs l).1 ∧
    (Ring.run qs r).1.capacity = r.capacity ∧
      (Ring.run qs r).2 = (Queue.run r.capacity qs l).2 := by
  induction qs generalizing r l with
  | nil => exact ⟨h, rfl, rfl⟩
  | cons q qs ih =>
      obtain ⟨hnext, hback⟩ := h.apply q
      have hcap := capacity_apply r q
      obtain ⟨hlast, hcap', hbacks⟩ := ih hnext
      rw [hcap] at hlast hcap' hbacks
      refine ⟨hlast, hcap', ?_⟩
      rw [Ring.run, Queue.run]
      exact congrArg₂ List.cons hback hbacks

/-! ## The slots -/

/-- The slots are in order: occupied are the `length` slots before the cursor and no others,
every slot that is read in turn exists and is occupied, the cursor and the oldest slot are slots,
and the way back from the one to the other does not lead below zero. -/
structure Laid (r : Ring α) : Prop where
  occupied : ∀ slot < r.capacity, (Option.isSome <| r.entry? slot) = true ↔
    ∃ k < r.length, (slot + (k + 1)) % r.capacity = r.cursor
  iterated : ∀ k < r.length, ∃ a, r.slots[(r.oldest + k) % r.capacity]? = some (some a)
  cursor_lt : 0 < r.capacity → r.cursor < r.slots.length
  oldest_lt : 0 < r.capacity → r.oldest < r.slots.length
  reach : r.length ≤ r.cursor + r.capacity

/-- Every slot is some number of slots after the oldest one. -/
theorem exists_wrap {n start slot : Nat} (hs : start < n) (hslot : slot < n) :
    ∃ k < n, slot = (start + k) % n := by
  rcases Nat.le_total start slot with hle | hle
  · refine ⟨slot - start, by omega, ?_⟩
    rw [Nat.add_sub_cancel' hle, Nat.mod_eq_of_lt hslot]
  · refine ⟨(slot + n - start) % n, Nat.mod_lt _ (by omega), ?_⟩
    rw [Nat.add_mod_mod, show start + (slot + n - start) = slot + n by omega, Nat.add_mod_right,
      Nat.mod_eq_of_lt hslot]

theorem Holds.laid (h : r.Holds l) : r.Laid := by
  have hlen := h.length_eq
  have hle := h.length_le
  refine ⟨?_, ?_, ?_, h.oldest_lt, by omega⟩
  · intro slot hslot
    have hpos : 0 < r.capacity := by omega
    have hs := h.oldest_lt hpos
    obtain ⟨k, hk, rfl⟩ := exists_wrap hs hslot
    rw [h.entry k hk, h.cursor_eq hpos, hlen]
    constructor
    · intro hsome
      have hkl : k < l.length := by
        by_contra hge
        rw [List.getElem?_eq_none (Nat.le_of_not_lt hge)] at hsome
        cases hsome
      refine ⟨l.length - (k + 1), by omega, ?_⟩
      rw [Nat.mod_add_mod]
      congr 1
      omega
    · rintro ⟨j, hj, hcur⟩
      rw [Nat.mod_add_mod] at hcur
      -- `j + 1` slots further on is the cursor, which is `l.length` slots after the oldest
      have hkl : k < l.length := by
        by_contra hge
        have hback : (r.oldest + k) % r.capacity
            = (r.oldest + (l.length - (j + 1))) % r.capacity := by
          have hcong : (r.oldest + k) + (j + 1) ≡ (r.oldest + (l.length - (j + 1))) + (j + 1)
              [MOD r.capacity] := by
            rw [Nat.ModEq, Nat.add_assoc r.oldest (l.length - (j + 1)),
              Nat.sub_add_cancel (show j + 1 ≤ l.length from hj)]
            exact hcur
          exact Nat.ModEq.add_right_cancel' (j + 1) hcong
        have := wrap_inj hs hk (by omega) hback
        omega
      rw [List.getElem?_eq_getElem hkl]
      rfl
  · intro k hk
    have hkl : k < l.length := hlen ▸ hk
    have hentry := h.entry k (by omega)
    rw [List.getElem?_eq_getElem hkl] at hentry
    refine ⟨l[k], ?_⟩
    unfold entry? at hentry
    rw [Option.join_eq_some_iff] at hentry
    exact hentry
  · intro hpos
    rw [h.cursor_eq hpos]
    exact Nat.mod_lt _ hpos

/-- **The ring is a bounded queue.** Whatever is asked of a ring that was empty: it hands back
what the queue hands back, it holds what the queue holds, which is never more than its
capacity, and its slots are in order. -/
theorem runs_as_queue (capacity : Nat) (qs : List (Request α)) :
    (run qs (empty capacity)).2 = (Queue.run capacity qs []).2 ∧
    (run qs (empty capacity)).1.toList = (Queue.run capacity qs []).1 ∧
    (run qs (empty capacity)).1.length = (Queue.run capacity qs []).1.length ∧
    (Queue.run capacity qs []).1.length ≤ capacity ∧
    (run qs (empty capacity)).1.capacity = capacity ∧
    (run qs (empty capacity)).1.Laid := by
  have hempty : (empty capacity : Ring α).Holds [] := holds_empty capacity
  obtain ⟨hholds, hcap, hbacks⟩ := hempty.run qs
  rw [capacity_empty] at hholds hcap hbacks
  have hle := hholds.length_le
  rw [hcap] at hle
  exact ⟨hbacks, hholds.toList_eq, hholds.length_eq, hle, hcap, hholds.laid⟩

-- the cursor comes round twice
example : run [.push 1, .push 2, .push 3, .pop, .push 4, .push 5] (empty 2)
    = (⟨[some 5, some 4], 1, 2⟩, [none, none, some 1, some 2, none, some 3]) := by decide

end Ring

end EventRelay
