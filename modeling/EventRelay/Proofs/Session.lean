import EventRelay.Proofs.Ring
import EventRelay.Session

/-!
# Sessions through the list of missed events

What the operations of a session do to the events it keeps, oldest first
(`Session.missed`), and to the count of those that a replay has handed out. The
ring is not looked into beyond this file: `Session.Wf` is all a later proof needs
to know about it.
-/

namespace EventRelay.Session

variable {s : Session}

/-- The events the session keeps, oldest first. -/
def missed (s : Session) : List Event := s.buffer.toList

/-- The ring is sound, and no more events were handed out than there are. -/
structure Wf (s : Session) : Prop where
  ring : s.buffer.Wf
  handed : s.unacknowledged ≤ s.missed.length

theorem replay_eq (s : Session) : s.replay = s.missed.map Event.asReplay := rfl

/-! ## Beginning and leaving -/

theorem wf_fresh (capacity : Nat) (m : Metadata) (now : Nat) : (fresh capacity m now).Wf :=
  ⟨Ring.wf_empty capacity, Nat.zero_le _⟩

theorem Wf.disconnect (h : s.Wf) (now : Nat) : (s.disconnect now).Wf := ⟨h.ring, h.handed⟩

/-! ## Missing an event -/

@[simp] theorem miss_capacity (s : Session) (e : Event) :
    (s.miss e).1.buffer.capacity = s.buffer.capacity := Ring.capacity_push s.buffer e

theorem Wf.missed_miss (h : s.Wf) (e : Event) :
    (s.miss e).1.missed = (s.missed ++ [e]).rtake s.buffer.capacity := h.ring.toList_push e

/-- An event that finds room adds itself. -/
theorem Wf.missed_miss_room (h : s.Wf) (e : Event) (hroom : s.missed.length < s.buffer.capacity) :
    (s.miss e).1.missed = s.missed ++ [e] := by
  rw [h.missed_miss, List.rtake, List.length_append, List.length_singleton,
    Nat.sub_eq_zero_of_le hroom, List.drop_zero]

/-- An event that finds none displaces the oldest one. With no capacity at all the
event itself is what is displaced. -/
theorem Wf.missed_miss_full (h : s.Wf) (e : Event) (hfull : ¬ s.missed.length < s.buffer.capacity) :
    (s.miss e).1.missed = (s.missed ++ [e]).drop 1 := by
  have hle : s.missed.length ≤ s.buffer.capacity := h.ring.length_le
  rw [h.missed_miss, List.rtake, List.length_append, List.length_singleton]
  congr 1
  omega

/-- A displaced event no longer counts as handed out. -/
theorem Wf.miss_unacknowledged (h : s.Wf) (e : Event) :
    (s.miss e).1.unacknowledged
      = if s.missed.length < s.buffer.capacity then s.unacknowledged else s.unacknowledged - 1 := by
  have hevicted := h.ring.push_evicted e
  have hhanded := h.handed
  rw [missed] at hhanded ⊢
  simp only [miss, hevicted]
  split
  · rfl
  · cases hl : s.buffer.toList with
    | nil =>
        rw [hl, List.length_nil] at hhanded
        simp only [List.head?_nil, Option.isSome_none, Bool.false_eq_true, if_false]
        omega
    | cons a l => rfl

theorem Wf.miss (h : s.Wf) (e : Event) : (s.miss e).1.Wf := by
  refine ⟨h.ring.push e, ?_⟩
  have hhanded := h.handed
  rw [h.miss_unacknowledged]
  by_cases hroom : s.missed.length < s.buffer.capacity
  · rw [if_pos hroom, h.missed_miss_room e hroom, List.length_append]
    omega
  · rw [if_neg hroom, h.missed_miss_full e hroom, List.length_drop, List.length_append,
      List.length_singleton]
    omega

/-! ## Coming back -/

theorem acknowledgedBy_none (s : Session) : s.acknowledgedBy none = 0 := rfl

/-- An id in the buffer covers the events up to it. -/
theorem acknowledgedBy_found {id : EventId} {k : Nat} (hid : id ≠ "")
    (h : s.missed.findIdx? (·.id == id) = some k) : s.acknowledgedBy (some id) = k + 1 := by
  have hfilter : (some id).filter (· != "") = some id := by simp [Option.filter, hid]
  rw [missed] at h
  simp only [acknowledgedBy, hfilter, h]

/-- An id that is not there covers what was handed out. -/
theorem acknowledgedBy_missing {id : EventId} (hid : id ≠ "")
    (h : s.missed.findIdx? (·.id == id) = none) :
    s.acknowledgedBy (some id) = s.unacknowledged := by
  have hfilter : (some id).filter (· != "") = some id := by simp [Option.filter, hid]
  rw [missed] at h
  simp only [acknowledgedBy, hfilter, h]

@[simp] theorem reclaim_capacity (s : Session) (last : Option EventId) (now : Nat) :
    (s.reclaim last now).buffer.capacity = s.buffer.capacity := Ring.capacity_discard ..

theorem Wf.missed_reclaim (h : s.Wf) (last : Option EventId) (now : Nat) :
    (s.reclaim last now).missed = s.missed.drop (s.acknowledgedBy last) :=
  h.ring.toList_discard _

/-- What is left after a reclaim has all been handed out. -/
theorem Wf.reclaim_unacknowledged (h : s.Wf) (last : Option EventId) (now : Nat) :
    (s.reclaim last now).unacknowledged = (s.reclaim last now).missed.length :=
  (h.ring.discard _).length_eq

theorem Wf.reclaim (h : s.Wf) (last : Option EventId) (now : Nat) : (s.reclaim last now).Wf :=
  ⟨h.ring.discard _, Nat.le_of_eq (h.reclaim_unacknowledged last now)⟩

end EventRelay.Session
