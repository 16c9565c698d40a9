import Mathlib
import EventRelay.Ring

/-!
# The ring as a list

`Ring.Holds r l` says that the slots of `r`, read from the oldest one on, hold
exactly the entries of `l`, and that all other slots are empty. It is the central
relation here: every operation takes a ring that holds a list to a ring that holds
the list one expects (`Holds.push`, `Holds.pop`, `Holds.discard`).

What the rest of the library reads is `Ring.toList`, so the results are restated
for a ring that holds its own list (`Ring.Wf`): a push keeps the newest entries
that fit, a discard drops from the oldest end.
-/

namespace EventRelay.Ring

variable {α : Type} {r : Ring α} {l : List α}

/-! ## Slots -/

/-- Going on from a slot by less than a full turn passes the end at most once. -/
theorem wrap_eq {n start k : Nat} (hs : start < n) (hk : k < n) :
    (start + k) % n = if start + k < n then start + k else start + k - n := by
  rw [Nat.add_mod_eq_ite, Nat.mod_eq_of_lt hs, Nat.mod_eq_of_lt hk]
  split <;> split <;> omega

/-- Within one turn no slot is met twice. -/
theorem wrap_inj {n start j k : Nat} (hs : start < n) (hj : j < n) (hk : k < n)
    (h : (start + j) % n = (start + k) % n) : j = k := by
  rw [wrap_eq hs hj, wrap_eq hs hk] at h
  split at h <;> split at h <;> omega

theorem wrap_ne_start {n start k : Nat} (hs : start < n) (hk : k < n) (h0 : 0 < k) :
    start ≠ (start + k) % n := by
  rw [wrap_eq hs hk]
  split <;> omega

/-- The oldest slot is where the cursor was `length` entries ago. -/
theorem oldest_of_cursor {start : Nat} (hs : start < r.capacity) (hl : r.length ≤ r.capacity)
    (hc : r.cursor = (start + r.length) % r.capacity) : r.oldest = start := by
  rw [oldest, hc]
  rcases Nat.lt_or_eq_of_le hl with hlt | heq
  · rw [wrap_eq hs hlt]
    split
    · rw [show start + r.length + r.capacity - r.length = start + r.capacity by omega,
        Nat.add_mod_right, Nat.mod_eq_of_lt hs]
    · rw [show start + r.length - r.capacity + r.capacity - r.length = start by omega,
        Nat.mod_eq_of_lt hs]
  · rw [heq, Nat.add_mod_right, Nat.mod_eq_of_lt hs, Nat.add_sub_cancel, Nat.mod_eq_of_lt hs]

/-- What is in a slot after one slot was written. -/
theorem entry?_set {slots : List (Option α)} {i c n : Nat} (hi : i < slots.length) (v : Option α)
    (j : Nat) : entry? ⟨slots.set i v, c, n⟩ j = if i = j then v else slots[j]?.join := by
  show (slots.set i v)[j]?.join = _
  rw [List.getElem?_set]
  by_cases h : i = j
  · rw [if_pos h, if_pos h, if_pos (h ▸ hi)]
    rfl
  · rw [if_neg h, if_neg h]

/-! ## Holding a list -/

/-- The slots of `r` hold the entries of `l`, oldest first, and nothing else. -/
structure Holds (r : Ring α) (l : List α) : Prop where
  length_eq : r.length = l.length
  length_le : l.length ≤ r.capacity
  oldest_lt : 0 < r.capacity → r.oldest < r.capacity
  cursor_eq : 0 < r.capacity → r.cursor = (r.oldest + l.length) % r.capacity
  entry : ∀ k < r.capacity, r.entry? ((r.oldest + k) % r.capacity) = l[k]?

/-- To see that a ring holds a list it is enough to know where the list starts. -/
theorem Holds.of_start (start : Nat) (hs : start < r.capacity) (hlen : r.length = l.length)
    (hle : l.length ≤ r.capacity) (hcur : r.cursor = (start + l.length) % r.capacity)
    (hentry : ∀ k < r.capacity, r.entry? ((start + k) % r.capacity) = l[k]?) : r.Holds l := by
  have hold : r.oldest = start := oldest_of_cursor hs (hlen ▸ hle) (hlen ▸ hcur)
  exact ⟨hlen, hle, fun _ => hold ▸ hs, fun _ => hold ▸ hcur, fun k hk => hold ▸ hentry k hk⟩

theorem holds_empty (n : Nat) : (empty n : Ring α).Holds [] := by
  refine ⟨rfl, Nat.zero_le _, fun h => ?_, fun h => ?_, fun k hk => ?_⟩
  · exact Nat.mod_lt _ h
  · simp only [oldest, empty, List.length_nil, Nat.zero_add, Nat.add_zero, Nat.sub_zero,
      Nat.mod_self, Nat.zero_mod]
  · show (List.replicate n none)[_]?.join = none
    rw [List.getElem?_replicate]
    split <;> rfl

theorem Holds.nil_of_capacity (h : r.Holds l) (h0 : r.capacity = 0) : l = [] :=
  List.eq_nil_of_length_eq_zero (by have := h.length_le; omega)

theorem Holds.toList_eq (h : r.Holds l) : r.toList = l := by
  rw [toList, h.length_eq]
  have hentry : ∀ k ∈ List.range l.length,
      r.entry? ((r.oldest + k) % r.capacity) = l[k]? := fun k hk =>
    h.entry k (Nat.lt_of_lt_of_le (List.mem_range.mp hk) h.length_le)
  rw [List.filterMap_congr hentry]
  clear hentry h
  induction l with
  | nil => rfl
  | cons a l ih =>
      rw [List.length_cons, List.range_succ_eq_map, List.filterMap_cons]
      simpa [List.filterMap_map, Function.comp_def] using ih

/-- The slot at the cursor is empty, or holds the oldest entry of a full ring. -/
theorem Holds.entry_cursor (h : r.Holds l) (hpos : 0 < r.capacity) :
    r.entry? r.cursor = if l.length < r.capacity then none else l.head? := by
  rw [h.cursor_eq hpos]
  split
  · next hlt => rw [h.entry _ hlt, List.getElem?_eq_none (Nat.le_refl _)]
  · next hfull =>
      have heq : l.length = r.capacity := Nat.le_antisymm h.length_le (by omega)
      have hentry := h.entry 0 hpos
      rw [Nat.add_zero] at hentry
      rw [heq, Nat.add_mod_right, hentry, List.head?_eq_getElem?]

/-! ## Pushing -/

@[simp] theorem capacity_push (r : Ring α) (a : α) : (r.push a).1.capacity = r.capacity := by
  rw [push]
  split
  · rfl
  · exact List.length_set ..

theorem Holds.push_evicted (h : r.Holds l) (a : α) :
    (r.push a).2 = if l.length < r.capacity then none else l.head? := by
  rw [push]
  split
  · next h0 =>
      rw [h.nil_of_capacity h0, if_neg (by omega)]
      rfl
  · next h0 => exact h.entry_cursor (by omega)

/-- Pushing writes the slot at the cursor, and the cursor goes one slot on. -/
theorem push_eq (h0 : r.capacity ≠ 0) (a : α) :
    (r.push a).1 = ⟨r.slots.set r.cursor (some a), (r.cursor + 1) % r.capacity,
      if Option.isNone <| r.entry? r.cursor then r.length + 1 else r.length⟩ := by
  rw [push, if_neg h0]

/-- A ring with room keeps what it has. -/
theorem Holds.push_room (h : r.Holds l) (a : α) (hroom : l.length < r.capacity) :
    (r.push a).1.Holds (l ++ [a]) := by
  have hpos : 0 < r.capacity := by omega
  have hs := h.oldest_lt hpos
  have hcur := h.cursor_eq hpos
  have hcur_lt : r.cursor < r.slots.length := hcur ▸ Nat.mod_lt _ hpos
  have hcap := capacity_push r a
  have hlen : (l ++ [a]).length = l.length + 1 := List.length_append
  refine Holds.of_start r.oldest (by rw [hcap]; exact hs) ?_ ?_ ?_ ?_
  · rw [push_eq (by omega), h.entry_cursor hpos, if_pos hroom, hlen, ← h.length_eq]
    rfl
  · rw [hcap, hlen]
    exact hroom
  · rw [hcap, push_eq (by omega), hlen, hcur, Nat.mod_add_mod, Nat.add_assoc]
  · intro k hk
    rw [hcap] at hk ⊢
    rw [push_eq (by omega), entry?_set hcur_lt, hcur]
    have hentry : r.slots[(r.oldest + k) % r.capacity]?.join = l[k]? := h.entry k hk
    rw [hentry]
    split
    · next heq =>
        obtain rfl := wrap_inj hs hroom hk heq
        rw [List.getElem?_append_right (Nat.le_refl _), Nat.sub_self]
        rfl
    · next hne =>
        have hk' : k ≠ l.length := fun e => hne (by rw [e])
        rcases Nat.lt_or_gt_of_ne hk' with hlt | hgt
        · rw [List.getElem?_append_left hlt]
        · rw [List.getElem?_eq_none (Nat.le_of_lt hgt), List.getElem?_eq_none (by omega)]

/-- A full ring gives up its oldest entry. -/
theorem Holds.push_full {b : α} (h : r.Holds (b :: l)) (a : α)
    (hfull : (b :: l).length = r.capacity) :
    (r.push a).1.Holds (l ++ [a]) := by
  rw [List.length_cons] at hfull
  have hpos : 0 < r.capacity := by omega
  have hs := h.oldest_lt hpos
  have hcur : r.cursor = (r.oldest + l.length + 1) % r.capacity := h.cursor_eq hpos
  have hcur_lt : r.cursor < r.slots.length := hcur ▸ Nat.mod_lt _ hpos
  have hcap := capacity_push r a
  have hlen : (l ++ [a]).length = r.capacity := by rw [← hfull]; exact List.length_append
  have hback : r.cursor = r.oldest := by
    rw [hcur, Nat.add_assoc, hfull, Nat.add_mod_right, Nat.mod_eq_of_lt hs]
  refine Holds.of_start ((r.oldest + 1) % r.capacity)
    (by rw [hcap]; exact Nat.mod_lt _ hpos) ?_ ?_ ?_ ?_
  · rw [push_eq (by omega), h.entry_cursor hpos, List.length_cons,
      if_neg (show ¬ l.length + 1 < r.capacity by omega), hlen, ← hfull]
    exact h.length_eq
  · rw [hcap, hlen]
  · rw [hcap, push_eq (by omega), hlen, Nat.add_mod_right, Nat.mod_mod, hback]
  · intro k hk
    rw [hcap] at hk ⊢
    rw [push_eq (by omega), entry?_set hcur_lt, hback, Nat.mod_add_mod, Nat.add_assoc,
      Nat.add_comm 1 k]
    rcases Nat.lt_or_eq_of_le (Nat.le_of_lt_succ (hfull ▸ hk)) with hlt | rfl
    · have hentry : r.slots[(r.oldest + (k + 1)) % r.capacity]?.join = l[k]? :=
        h.entry (k + 1) (by omega)
      rw [hentry, List.getElem?_append_left hlt, if_neg]
      exact wrap_ne_start hs (by omega) (by omega)
    · rw [hfull, Nat.add_mod_right, Nat.mod_eq_of_lt hs, if_pos rfl,
        List.getElem?_append_right (Nat.le_refl _), Nat.sub_self]
      rfl

/-- A push keeps the newest entries that fit. -/
theorem Holds.push (h : r.Holds l) (a : α) : (r.push a).1.Holds ((l ++ [a]).rtake r.capacity) := by
  have hle := h.length_le
  have hlen : (l ++ [a]).length = l.length + 1 := List.length_append
  by_cases hroom : l.length < r.capacity
  · rw [List.rtake, hlen, Nat.sub_eq_zero_of_le hroom]
    exact h.push_room a hroom
  · cases l with
    | nil =>
        have h0 : r.capacity = 0 := Nat.eq_zero_of_not_pos hroom
        rw [Ring.push, if_pos h0, h0, List.rtake_zero]
        exact h
    | cons b l =>
        rw [List.rtake, hlen, show (b :: l).length + 1 - r.capacity = 1 by omega]
        exact h.push_full a (by omega)

/-! ## Taking out -/

@[simp] theorem capacity_pop (r : Ring α) : r.pop.1.capacity = r.capacity := by
  rw [pop]
  split
  · rfl
  · exact List.length_set ..

/-- Taking out empties the oldest slot, and the one after it becomes the oldest. -/
theorem Holds.pop (h : r.Holds l) : r.pop.1.Holds l.tail := by
  cases l with
  | nil =>
      have h0 : r.length = 0 := h.length_eq
      rw [Ring.pop, if_pos h0]
      exact h
  | cons b l =>
      have hlen : r.length = l.length + 1 := h.length_eq
      have hle : l.length + 1 ≤ r.capacity := h.length_le
      have hpos : 0 < r.capacity := by omega
      have hs := h.oldest_lt hpos
      have hcap := capacity_pop r
      have hpop : r.pop.1 = ⟨r.slots.set r.oldest none, r.cursor, r.length - 1⟩ := by
        rw [Ring.pop, if_neg (by omega)]
      refine Holds.of_start ((r.oldest + 1) % r.capacity)
        (by rw [hcap]; exact Nat.mod_lt _ hpos) ?_ ?_ ?_ ?_
      · rw [hpop, hlen]
        rfl
      · rw [hcap]
        exact Nat.le_of_succ_le hle
      · rw [hcap, hpop, Nat.mod_add_mod, Nat.add_assoc, Nat.add_comm 1]
        exact h.cursor_eq hpos
      · intro k hk
        rw [hcap] at hk ⊢
        rw [hpop, entry?_set (by exact hs), Nat.mod_add_mod, Nat.add_assoc, Nat.add_comm 1 k,
          List.tail_cons]
        rcases Nat.lt_or_eq_of_le (Nat.succ_le_of_lt hk) with hlt | heq
        · have hentry : r.slots[(r.oldest + (k + 1)) % r.capacity]?.join = l[k]? :=
            h.entry (k + 1) hlt
          rw [hentry, if_neg]
          exact wrap_ne_start hs hlt (by omega)
        · rw [show k + 1 = r.capacity from heq, Nat.add_mod_right, Nat.mod_eq_of_lt hs, if_pos rfl,
            List.getElem?_eq_none (by omega)]

theorem capacity_repeat_pop (r : Ring α) : ∀ n : Nat,
    (Nat.repeat (fun r : Ring α => r.pop.1) n r).capacity = r.capacity
  | 0 => rfl
  | n + 1 => (capacity_pop _).trans (capacity_repeat_pop r n)

@[simp] theorem capacity_discard (r : Ring α) (n : Nat) : (r.discard n).capacity = r.capacity :=
  capacity_repeat_pop r _

theorem Holds.repeat_pop (h : r.Holds l) : ∀ n : Nat,
    (Nat.repeat (fun r : Ring α => r.pop.1) n r).Holds (l.drop n)
  | 0 => h
  | n + 1 => by
      rw [← List.tail_drop]
      exact (h.repeat_pop n).pop

theorem Holds.discard (h : r.Holds l) (n : Nat) : (r.discard n).Holds (l.drop n) := by
  rw [Ring.discard, h.length_eq]
  have hdrop : l.drop n = l.drop (min n l.length) := by
    rcases Nat.le_total n l.length with hle | hge
    · rw [Nat.min_eq_left hle]
    · rw [Nat.min_eq_right hge, List.drop_of_length_le hge, List.drop_length]
  exact hdrop ▸ h.repeat_pop _

/-! ## Rings that hold their list

A ring made from `Ring.empty` by the operations above is well-formed, and its list
is then all there is to know of it. -/

/-- The slots of `r` are those of its list. -/
def Wf (r : Ring α) : Prop := r.Holds r.toList

theorem Holds.wf (h : r.Holds l) : r.Wf := by
  rw [Wf, h.toList_eq]
  exact h

theorem wf_empty (n : Nat) : (empty n : Ring α).Wf := (holds_empty n).wf

@[simp] theorem capacity_empty (n : Nat) : (empty n : Ring α).capacity = n := List.length_replicate

theorem Wf.push (h : r.Wf) (a : α) : (r.push a).1.Wf := (Holds.push h a).wf

theorem Wf.discard (h : r.Wf) (n : Nat) : (r.discard n).Wf := (Holds.discard h n).wf

theorem Wf.length_eq (h : r.Wf) : r.length = r.toList.length := Holds.length_eq h

theorem Wf.length_le (h : r.Wf) : r.toList.length ≤ r.capacity := Holds.length_le h

theorem Wf.toList_push (h : r.Wf) (a : α) :
    (r.push a).1.toList = (r.toList ++ [a]).rtake r.capacity := (Holds.push h a).toList_eq

/-- Only a full ring gives up an entry, and it gives up its oldest one. -/
theorem Wf.push_evicted (h : r.Wf) (a : α) :
    (r.push a).2 = if r.toList.length < r.capacity then none else r.toList.head? :=
  Holds.push_evicted h a

theorem Wf.toList_discard (h : r.Wf) (n : Nat) : (r.discard n).toList = r.toList.drop n :=
  (Holds.discard h n).toList_eq

end EventRelay.Ring
