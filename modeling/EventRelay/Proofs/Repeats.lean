import EventRelay.Proofs.Ownership
import EventRelay.Proofs.Stall

/-!
# Naming a session twice

A message may name a session more than once, and its event is then sent there as many times.
This file says when that cannot be told from naming it once: a copy too many leaves no trace
where the first one leaves no room (`Place.Sated`), and nowhere else. The client's queue is full
then and the copy is dropped, or the buffer holds nothing but copies of the event.

At one place it does not matter how many copies too many there are (`Place.Sound.repeats_iff`):
a queue that has grown does not get shorter again, and a buffer that looks as before after some
more copies does so after any number of them, so it holds as many as it has room for.
-/

namespace EventRelay

namespace Session

variable {s : Session} {e : Event}

/-- The sessions are the same but for the layout of their buffers. -/
def Agrees (s s' : Session) : Prop := s'.missed = s.missed ∧ s' = { s with buffer := s'.buffer }

theorem Agrees.refl (s : Session) : s.Agrees s := ⟨rfl, rfl⟩

/-- The buffer has no room for anything but copies of the event, and none of them was handed
out. -/
def Sated (e : Event) (s : Session) : Prop :=
  s.missed = List.replicate s.buffer.capacity e ∧ s.unacknowledged = 0

/-! ## Missing an event several times -/

/-- The session after it missed the event so many times. -/
def missTimes (e : Event) (k : Nat) (s : Session) : Session := (fun s => (s.miss e).1)^[k] s

theorem missTimes_succ (e : Event) (k : Nat) (s : Session) :
    s.missTimes e (k + 1) = ((s.missTimes e k).miss e).1 := Function.iterate_succ_apply' ..

theorem missTimes_capacity (e : Event) (k : Nat) (s : Session) :
    (s.missTimes e k).buffer.capacity = s.buffer.capacity := by
  induction k with
  | zero => rfl
  | succ k ih => rw [missTimes_succ, miss_capacity, ih]

theorem missTimes_rest (e : Event) (k : Nat) (s : Session) : s.missTimes e k =
    { s with
      buffer := (s.missTimes e k).buffer
      unacknowledged := (s.missTimes e k).unacknowledged } := by
  induction k with
  | zero => rfl
  | succ k ih =>
      rw [missTimes_succ]
      generalize s.missTimes e k = s' at ih ⊢
      rw [ih]
      rfl

theorem Wf.missTimes (hwf : s.Wf) (e : Event) (k : Nat) : (s.missTimes e k).Wf := by
  induction k with
  | zero => exact hwf
  | succ k ih =>
      rw [missTimes_succ]
      exact ih.miss e

/-- What has dropped out of the newest `n` does not come back. -/
theorem rtake_rtake_append {α : Type} (l r : List α) (n : Nat) :
    (l.rtake n ++ r).rtake n = (l ++ r).rtake n := by
  rw [List.rtake_eq_reverse_take_reverse, List.rtake_eq_reverse_take_reverse,
    List.rtake_eq_reverse_take_reverse, List.reverse_append, List.reverse_append,
    List.reverse_reverse, List.take_append, List.take_append, List.take_take,
    Nat.min_eq_left (Nat.sub_le ..)]

/-- The newest `n` of a list that ends in `n` copies are copies. -/
theorem rtake_append_replicate {α : Type} (l : List α) (a : α) {n m : Nat} (hle : n ≤ m) :
    (l ++ List.replicate m a).rtake n = List.replicate n a := by
  rw [List.rtake, List.length_append, List.length_replicate, List.drop_append,
    List.drop_of_length_le (show l.length ≤ l.length + m - n by omega), List.nil_append,
    List.drop_replicate]
  congr 1
  omega

theorem Wf.rtake_missed (hwf : s.Wf) : s.missed.rtake s.buffer.capacity = s.missed := by
  have hle : s.missed.length ≤ s.buffer.capacity := hwf.ring.length_le
  rw [List.rtake, Nat.sub_eq_zero_of_le hle, List.drop_zero]

theorem Wf.missed_missTimes (hwf : s.Wf) (e : Event) (k : Nat) :
    (s.missTimes e k).missed = (s.missed ++ List.replicate k e).rtake s.buffer.capacity := by
  induction k with
  | zero =>
      rw [List.replicate_zero, List.append_nil, hwf.rtake_missed]
      rfl
  | succ k ih =>
      rw [missTimes_succ, (hwf.missTimes e k).missed_miss, missTimes_capacity, ih,
        rtake_rtake_append, List.append_assoc, ← List.replicate_succ']

/-- Each event that is displaced counts as handed out no longer. -/
theorem Wf.unacknowledged_missTimes (hwf : s.Wf) (e : Event) (k : Nat) :
    (s.missTimes e k).unacknowledged
      = s.unacknowledged - (s.missed.length + k - s.buffer.capacity) := by
  have hle : s.missed.length ≤ s.buffer.capacity := hwf.ring.length_le
  induction k with
  | zero =>
      rw [Nat.add_zero, Nat.sub_eq_zero_of_le hle, Nat.sub_zero]
      rfl
  | succ k ih =>
      have hlen : (s.missTimes e k).missed.length
          = min s.buffer.capacity (s.missed.length + k) := by
        rw [hwf.missed_missTimes, List.rtake, List.length_drop, List.length_append,
          List.length_replicate]
        omega
      rw [missTimes_succ, (hwf.missTimes e k).miss_unacknowledged, missTimes_capacity, hlen, ih]
      split <;> omega

/-- A buffer that looks as before when more copies have come holds copies only. -/
theorem Wf.repeats_iff (hwf : s.Wf) (e : Event) {k : Nat} (hk : 0 < k) :
    s.Agrees (s.missTimes e k) ↔ s.Sated e := by
  have hlen : s.missed.length ≤ s.buffer.capacity := hwf.ring.length_le
  have hhanded := hwf.handed
  constructor
  · rintro ⟨hmissed, hrest⟩
    rw [hwf.missed_missTimes] at hmissed
    -- what holds for `k` copies holds for any multiple of them
    have hmany : ∀ j,
        (s.missed ++ List.replicate (j * k) e).rtake s.buffer.capacity = s.missed := by
      intro j
      induction j with
      | zero =>
          rw [Nat.zero_mul, List.replicate_zero, List.append_nil, hwf.rtake_missed]
      | succ j ih =>
          rw [Nat.succ_mul, List.replicate_add, ← List.append_assoc, ← rtake_rtake_append, ih,
            hmissed]
    have hfull : s.missed = List.replicate s.buffer.capacity e :=
      (hmany s.buffer.capacity).symm.trans
        (rtake_append_replicate s.missed e (Nat.le_mul_of_pos_right _ hk))
    refine ⟨hfull, ?_⟩
    have hcount : (s.missTimes e k).unacknowledged = s.unacknowledged := by rw [hrest]
    have hlen' : s.missed.length = s.buffer.capacity := by rw [hfull, List.length_replicate]
    rw [hwf.unacknowledged_missTimes] at hcount
    omega
  · rintro ⟨hfull, hzero⟩
    refine ⟨?_, ?_⟩
    · rw [hwf.missed_missTimes, hfull, List.replicate_append_replicate, Nat.add_comm,
        ← List.replicate_append_replicate, rtake_append_replicate _ e (Nat.le_refl _)]
    · have hcount := hwf.unacknowledged_missTimes e k
      rw [hzero, Nat.zero_sub, ← hzero] at hcount
      conv_lhs => rw [missTimes_rest, hcount]

end Session

namespace Place

variable {p q : Place} {e : Event} {t : Terms}

/-- The same client, if any, and the same session but for the layout of its buffer. -/
structure Agrees (p q : Place) : Prop where
  slot : q.slot = p.slot
  session : Option.Rel Session.Agrees p.session q.session

theorem Agrees.refl (p : Place) : p.Agrees p := by
  refine ⟨rfl, ?_⟩
  cases p.session with
  | none => exact .none
  | some s => exact .some (Session.Agrees.refl s)

/-- Another copy of the event would leave no trace: the client's queue is full, with time left
to read it, or nobody is there and the buffer is full of copies. -/
def Sated (e : Event) (t : Terms) (p : Place) : Prop :=
  p.fate t = .dropped ∨ p.slot = none ∧ ∀ s, p.session = some s → s.Sated e

/-! ## Nobody is there -/

theorem iterate_receive_left {s : Session} (hidle : s.active = false) (e : Event) (k : Nat) :
    (fun q : Place => q.receive e t)^[k] ⟨some s, none⟩ = ⟨some (s.missTimes e k), none⟩ := by
  induction k with
  | zero => rfl
  | succ k ih =>
      have hactive : (s.missTimes e k).active = false := by
        rw [Session.missTimes_rest]
        exact hidle
      rw [Function.iterate_succ_apply', ih, Session.missTimes_succ]
      show Place.keep ⟨some _, none⟩ e = _
      simp only [Place.keep, Option.map_some, hactive, Bool.false_eq_true, if_false]

/-! ## Somebody is there -/

/-- The client's queue, if there still is a client, is longer than `n`. -/
def Outgrown (n : Nat) (p : Place) : Prop :=
  ∀ slot, p.slot = some slot → n < slot.channel.queue.length

/-- A copy that is not dropped joins the queue or ends the connection. -/
theorem Held.outgrown_receive {slot : Slot} (hheld : p.Held) (hslot : p.slot = some slot)
    (e : Event)
    (hfate : p.fate t ≠ .dropped) : (p.receive e t).Outgrown slot.channel.queue.length := by
  obtain ⟨s, hs, -⟩ := hheld.mp (hslot ▸ rfl)
  have hmeets := hheld.meets_receive (t := t) hs e
  intro slot' hslot'
  generalize p.fate t = f, p.receive e t = q at hmeets hfate hslot'
  cases hmeets with
  | kept => cases hslot
  | delivered =>
      obtain rfl := Option.some.inj hslot
      obtain rfl := Option.some.inj hslot'
      show _ < (_ ++ [e]).length
      rw [List.length_append]
      exact Nat.lt_succ_self _
  | dropped => exact absurd rfl hfate
  | handedOver => cases hslot'

/-- No copy makes a queue shorter. -/
theorem Outgrown.receive {n : Nat} (hout : p.Outgrown n) (hheld : p.Held) (e : Event) :
    (p.receive e t).Outgrown n := by
  cases hs : p.session with
  | none => rwa [receive_absent hs hheld]
  | some s =>
      have hmeets := hheld.meets_receive (t := t) hs e
      intro slot' hslot'
      generalize p.fate t = f, p.receive e t = q at hmeets hslot'
      cases hmeets with
      | kept => cases hslot'
      | delivered =>
          obtain rfl := Option.some.inj hslot'
          refine Nat.lt_of_lt_of_le (hout _ rfl) ?_
          show _ ≤ (_ ++ [e]).length
          rw [List.length_append]
          exact Nat.le_add_right ..
      | @dropped s slot =>
          obtain rfl := Option.some.inj hslot'
          exact hout slot rfl
      | handedOver => cases hslot'

theorem Outgrown.iterate_receive {n : Nat} (hout : p.Outgrown n) (hheld : p.Held) (e : Event)
    (k : Nat) : ((fun q => q.receive e t)^[k] p).Outgrown n := by
  induction k generalizing p with
  | zero => exact hout
  | succ k ih => exact ih (hout.receive hheld e) (hheld.receive e)

/-- Where an event was offered, the stall clock of a full queue runs. -/
theorem Held.marked_receive {slot : Slot} (hheld : p.Held) (e : Event)
    (hslot : (p.receive e t).slot = some slot) : slot.Marked := by
  intro hfull
  cases hs : p.session with
  | none =>
      rw [receive_absent hs hheld] at hslot
      obtain ⟨s, hs', -⟩ := hheld.mp (hslot ▸ rfl)
      cases hs.symm.trans hs'
  | some s =>
      have hmeets := hheld.meets_receive (t := t) hs e
      generalize p.fate t = f, p.receive e t = q at hmeets hslot
      cases hmeets with
      | kept => cases hslot
      | delivered =>
          obtain rfl := Option.some.inj hslot
          have hle := List.length_append ▸ Slot.isFull_iff.mp hfull
          exact congrArg Option.isSome (if_pos hle)
      | dropped =>
          obtain rfl := Option.some.inj hslot
          rfl
      | handedOver => cases hslot

/-- Where a copy is dropped after another one, it leaves no trace. -/
theorem Held.receive_fixed (hheld : p.Held) (hfate : (p.receive e t).fate t = .dropped) :
    (p.receive e t).receive e t = p.receive e t := by
  have hheld' : (p.receive e t).Held := hheld.receive e
  have hmarked : ∀ slot, (p.receive e t).slot = some slot → slot.Marked :=
    fun slot => hheld.marked_receive e
  generalize p.receive e t = q at hheld' hfate hmarked ⊢
  cases hs : q.session with
  | none => exact receive_absent hs hheld' e
  | some s =>
      have hmeets := hheld'.meets_receive (t := t) hs e
      rw [hfate] at hmeets
      generalize q.receive e t = r at hmeets ⊢
      cases hmeets with
      | dropped hactive hreads hfull hearly => rw [Slot.stall_eq (hmarked _ rfl) hfull]

/-! ## Copies too many -/

/-- Any number of copies after the first one leaves no trace exactly where the first one leaves
no room. -/
theorem Sound.repeats_iff {n : Nat} (hp : p.Sound n) (e : Event) (t : Terms) {k : Nat}
    (hk : 0 < k) :
    (p.receive e t).Agrees ((fun q => q.receive e t)^[k] (p.receive e t)) ↔
      (p.receive e t).Sated e t := by
  have hq : (p.receive e t).Sound n := hp.receive e
  have hfixed := @Held.receive_fixed p e t hp.held
  generalize p.receive e t = q at hq hfixed ⊢
  by_cases hdropped : q.fate t = .dropped
  · rw [Function.iterate_fixed (hfixed hdropped)]
    exact iff_of_true (Agrees.refl q) (Or.inl hdropped)
  · obtain ⟨session, slot⟩ := q
    cases slot with
    | some slot =>
        obtain ⟨j, rfl⟩ := Nat.exists_eq_succ_of_ne_zero (Nat.ne_of_gt hk)
        have hout : ((fun q => q.receive e t)^[j] (Place.receive ⟨session, some slot⟩ e t)).Outgrown
            slot.channel.queue.length :=
          (hq.held.outgrown_receive rfl e hdropped).iterate_receive (hq.held.receive e) e j
        refine iff_of_false ?_ ?_
        · intro hagrees
          exact Nat.lt_irrefl _ (hout slot hagrees.slot)
        · rintro (hfate | ⟨hnone, -⟩)
          · exact hdropped hfate
          · cases hnone
    | none =>
        cases session with
        | none =>
            rw [Function.iterate_fixed (receive_absent rfl hq.held e)]
            exact iff_of_true (Agrees.refl _) (Or.inr ⟨rfl, fun s hs => by cases hs⟩)
        | some s =>
            have hidle : s.active = false := hq.held.active_eq rfl
            rw [iterate_receive_left hidle]
            constructor
            · rintro ⟨-, hsession⟩
              cases hsession with
              | some hsession =>
                  refine Or.inr ⟨rfl, ?_⟩
                  intro s' hs'
                  obtain rfl := Option.some.inj hs'
                  exact ((hq.wf s rfl).1.repeats_iff e hk).mp hsession
            · rintro (hfate | ⟨-, hsated⟩)
              · exact absurd hfate hdropped
              · exact ⟨rfl, .some (((hq.wf s rfl).1.repeats_iff e hk).mpr (hsated s rfl))⟩

end Place

namespace Hub

variable {hs : List Client} {h h' : Hub}

/-- Nobody can tell the hubs apart: they agree on every client, every session, who has been told
of the end of the connection, and how many are connected. -/
structure Agrees (h h' : Hub) : Prop where
  place : ∀ id, (h.place id).Agrees (h'.place id)
  closed : ∀ x, x ∈ h'.closed ↔ x ∈ h.closed
  count : h'.liveCount = h.liveCount

theorem Sound.agrees (hS : h.Sound hs) (hS' : h'.Sound hs)
    (hplace : ∀ id, (h.place id).Agrees (h'.place id)) : h.Agrees h' := by
  have hget : ∀ id, Table.get? h'.clients id = Table.get? h.clients id := fun id => (hplace id).slot
  have hserves : ∀ c, h'.Serves c ↔ h.Serves c := by
    intro c
    rw [Serves, Serves, hget]
  refine ⟨hplace, ?_, ?_⟩
  · intro x
    constructor
    · intro hx
      obtain ⟨c, hc, rfl⟩ := hS'.closed_known x hx
      rwa [hS.closed_iff c hc, ← hserves, ← hS'.closed_iff c hc]
    · intro hx
      obtain ⟨c, hc, rfl⟩ := hS.closed_known x hx
      rwa [hS'.closed_iff c hc, hserves, ← hS.closed_iff c hc]
  · have hheld : h'.held = h.held := by
      ext id
      rw [← hS'.mem_clients_iff, ← hS.mem_clients_iff, ← Table.get?_isSome, ← Table.get?_isSome,
        hget]
    rw [hS'.liveCount_eq_ncard, hS.liveCount_eq_ncard, hheld]

end Hub

/-- **Naming a session again is naming it once exactly where the first copy leaves no room.**
Where a message leads from any point of any run does not depend on repetitions in its list of
sessions if and only if each session that is named again is sated by the first copy. -/
theorem Run.repeats_unseen_iff {past : List Occurrence} {h : Hub} (hrun : Run past h) (e : Event)
    (ids : List SessionId) :
    (h.dispatch ⟨e, .sessions ids.dedup⟩).Agrees (h.dispatch ⟨e, .sessions ids⟩) ↔
      ∀ id, 2 ≤ ids.count id → ((h.dispatchTo e id).place id).Sated e h.terms := by
  have hS := hrun.sound
  have hheld : ∀ id, (h.place id).Held := fun id => (hS.place id).held
  have hplace : ∀ ids : List SessionId, ∀ id, (h.dispatch ⟨e, .sessions ids⟩).place id
      = (fun p => p.receive e h.terms)^[ids.count id] (h.place id) := by
    intro ids id
    exact Hub.place_dispatch h hS.clients_nodup hheld Scope.noConfusion id
  have honce : ∀ id, (h.dispatchTo e id).place id = (h.place id).receive e h.terms := by
    intro id
    rw [Hub.place_dispatchTo h e id id (hheld id), if_pos rfl]
  have heach : ∀ id, ((h.dispatch ⟨e, .sessions ids.dedup⟩).place id).Agrees
      ((h.dispatch ⟨e, .sessions ids⟩).place id) ↔
        (2 ≤ ids.count id → ((h.dispatchTo e id).place id).Sated e h.terms) := by
    intro id
    rw [hplace, hplace, honce, List.count_dedup]
    by_cases hmem : id ∈ ids
    · obtain ⟨k, hk⟩ := Nat.exists_eq_succ_of_ne_zero (Nat.ne_of_gt (List.count_pos_iff.mpr hmem))
      rw [if_pos hmem, hk, Function.iterate_one, Function.iterate_succ_apply]
      cases k with
      | zero => exact iff_of_true (Place.Agrees.refl _) fun htwo => absurd htwo (by decide)
      | succ k =>
          rw [(hS.place id).repeats_iff e h.terms k.succ_pos]
          exact ⟨fun hsated _ => hsated, fun hsated => hsated (by omega)⟩
    · rw [if_neg hmem, List.count_eq_zero.mpr hmem]
      exact iff_of_true (Place.Agrees.refl _) fun htwo => absurd htwo (by decide)
  constructor
  · intro hagrees id
    exact (heach id).mp (hagrees.place id)
  · intro hsated
    exact (hS.dispatch _).agrees (hS.dispatch _) fun id => (heach id).mpr (hsated id)

/-- Two clients, the second of which goes and leaves its session. -/
def Act.parting : List Act :=
  [.register (.numbered 1 none none [.ok "S1"]), .register (.numbered 2 none none [.ok "S2"]),
    .release "S2" none]

/-- Where the client's greeting leaves room for one event, naming it twice is not seen. -/
theorem repeats_unseen_full : ∃ past h, Run past h ∧ ∃ e ids, List.dedup ids ≠ ids ∧
    (h.dispatch ⟨e, .sessions ids.dedup⟩).Agrees (h.dispatch ⟨e, .sessions ids⟩) := by
  have hplayed : (play Act.parting ([], Hub.opened { queueCapacity := 1 } {})).any (fun s =>
      ((s.2.dispatchTo ⟨"A", "news", [], false⟩ "S1").place "S1").fate s.2.terms == .dropped)
      = true := by decide +kernel
  obtain ⟨⟨past, h⟩, hplay, hfate⟩ := (Option.any_eq_true _ _).mp hplayed
  have hrun : Run past h := Run.play (Run.opened (by decide) {}) hplay
  refine ⟨past, h, hrun, ⟨"A", "news", [], false⟩, ["S1", "S1"], by decide, ?_⟩
  refine (Run.repeats_unseen_iff hrun _ _).mpr ?_
  intro id htwo
  have hmem : id ∈ ["S1", "S1"] := List.count_pos_iff.mp (Nat.lt_of_lt_of_le Nat.two_pos htwo)
  obtain rfl : id = "S1" := by simpa using hmem
  exact Or.inl (eq_of_beq hfate)

/-- With the settings a broker has by default it is seen: the client gets the event twice, and so
does the buffer of the session that was left. -/
theorem repeats_seen : ∃ past h, Run past h ∧ ∃ (e : Event) (ids : List SessionId),
    (Table.get? (h.dispatch ⟨e, .sessions ids⟩).clients "S1").map (·.channel.queue.count e)
    = some 2 ∧
    ((h.dispatch ⟨e, .sessions ids⟩).registry.find? "S2").map (·.missed) = some [e, e] ∧
    (Table.get? (h.dispatch ⟨e, .sessions ids.dedup⟩).clients "S1").map (·.channel.queue.count e)
      = some 1 ∧
    ((h.dispatch ⟨e, .sessions ids.dedup⟩).registry.find? "S2").map (·.missed) = some [e] ∧
    ¬ (h.dispatch ⟨e, .sessions ids.dedup⟩).Agrees (h.dispatch ⟨e, .sessions ids⟩) := by
  have hplayed : (play Act.parting ([], Hub.opened {} {})).any (fun s =>
      let e : Event := ⟨"A", "news", [], false⟩
      let ids := ["S1", "S2", "S1", "S2"]
      let once := s.2.dispatch ⟨e, .sessions ids.dedup⟩
      let twice := s.2.dispatch ⟨e, .sessions ids⟩
      decide ((Table.get? twice.clients "S1").map (·.channel.queue.count e) = some 2 ∧
        (twice.registry.find? "S2").map (·.missed) = some [e, e] ∧
        (Table.get? once.clients "S1").map (·.channel.queue.count e) = some 1 ∧
        (once.registry.find? "S2").map (·.missed) = some [e])) = true := by decide +kernel
  obtain ⟨⟨past, h⟩, hplay, hs⟩ := (Option.any_eq_true _ _).mp hplayed
  obtain ⟨htwice, hbuffered, honce, hbuffered'⟩ := of_decide_eq_true hs
  have hrun : Run past h := Run.play (Run.opened (by decide) {}) hplay
  refine ⟨past, h, hrun, _, _, htwice, hbuffered, honce, hbuffered', ?_⟩
  intro hagrees
  have hsame := congrArg (Option.map fun slot : Slot => slot.channel.queue.count
    (⟨"A", "news", [], false⟩ : Event)) (hagrees.place "S1").slot
  exact absurd (htwice.symm.trans (hsame.trans honce)) (by decide)

end EventRelay
