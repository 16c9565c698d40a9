import EventRelay.Proofs.Session
import EventRelay.Proofs.Table
import EventRelay.Hub

/-!
# What the hub keeps for one session

A `Place` is the part of the hub that belongs to one session id: the session and
the slot of the client that holds it. This file holds what may be done to a place
(`Place.vacate`, `Place.receive` and so on) and shows that all of it keeps a place
`Held`: the session is active exactly while a client holds it.

The second half reads the registry one session at a time: what `Registry.find?`
sees after each of the registry's operations.
-/

namespace EventRelay

/-- What the operations of a hub read and do not change. -/
structure Terms where
  config : Broker.Config
  sessions : Registry.Config
  now : Nat

/-- What the hub keeps under one session id. -/
structure Place where
  session : Option Session
  slot : Option Slot

namespace Place

/-- The session is active exactly while a client holds it. -/
def Held (p : Place) : Prop := p.slot.isSome ↔ ∃ s, p.session = some s ∧ s.active = true

/-- The client, if there is one, is disconnected. -/
def vacate (p : Place) (t : Terms) : Place :=
  match p.slot with
  | none => p
  | some _ => ⟨p.session.map (·.disconnect t.now), none⟩

/-- The client, if there is one, is looked at by `f`, and disconnected if `f` says so. -/
def judge (p : Place) (f : Slot → Slot × Bool) (t : Terms) : Place :=
  match p.slot with
  | none => p
  | some slot => if (f slot).2 then p.vacate t else { p with slot := some (f slot).1 }

/-- An event is offered to the client. -/
def tell (p : Place) (e : Event) (t : Terms) : Place :=
  p.judge (fun slot => let o := slot.offer e t.config.patience t.now; (o.1, o.2.isFatal)) t

/-- The stall clock of the client is looked at. -/
def inspect (p : Place) (t : Terms) : Place :=
  p.judge (fun slot => slot.check t.config.patience t.now) t

/-- An event is kept for a session that nobody holds. -/
def keep (p : Place) (e : Event) : Place :=
  { p with session := p.session.map fun s => if s.active then s else (s.miss e).1 }

/-- An event reaches the session: its client, or its buffer. -/
def receive (p : Place) (e : Event) (t : Terms) : Place := (p.tell e t).keep e

/-- An event is sent to the session by name: to the client if there is one, and to the buffer
if there is none, or none any more. -/
def serve (p : Place) (e : Event) (t : Terms) : Place :=
  match p.slot with
  | none => p.keep e
  | some slot =>
    let o := slot.offer e t.config.patience t.now
    if o.2.isFatal then (p.vacate t).keep e else { p with slot := some o.1 }

/-- A session that has expired is forgotten. -/
def expire (p : Place) (t : Terms) : Place :=
  { p with session := p.session.filter fun s => !s.expired t.sessions.ttl t.now }

theorem vacate_slot (p : Place) (t : Terms) : (p.vacate t).slot = none := by
  obtain ⟨session, slot⟩ := p
  cases slot <;> rfl

/-- Nothing is left to disconnect the second time. -/
theorem vacate_vacate (p : Place) (t : Terms) : (p.vacate t).vacate t = p.vacate t := by
  obtain ⟨session, slot⟩ := p
  cases slot <;> rfl

/-- The client reads, if it is the given one. -/
def read (p : Place) (c : ClientId) : Place :=
  match p.slot.filter (·.client == c) with
  | none => p
  | some slot =>
    match slot.channel.queue with
    | [] => p
    | _ :: rest =>
        { p with slot := some { slot with channel := { slot.channel with queue := rest } } }

/-- The client goes away, if it is the given one. -/
def leave (p : Place) (c : ClientId) : Place :=
  match p.slot.filter (·.client == c) with
  | none => p
  | some slot =>
    { p with slot := some { slot with channel := { slot.channel with attended := false } } }

/-! ## Held places -/

variable {p : Place} {t : Terms}

theorem Held.vacate (h : p.Held) : (p.vacate t).Held := by
  obtain ⟨session, slot⟩ := p
  cases slot with
  | none => exact h
  | some slot =>
      refine ⟨fun hs => (Bool.false_ne_true hs).elim, ?_⟩
      rintro ⟨s, hs, hactive⟩
      obtain ⟨s', -, rfl⟩ := Option.map_eq_some_iff.mp hs
      exact (Bool.false_ne_true hactive).elim

theorem Held.judge (h : p.Held) (f : Slot → Slot × Bool) : (p.judge f t).Held := by
  unfold Place.judge
  split
  · exact h
  · next slot hslot =>
      split
      · exact h.vacate
      · rw [Held, hslot] at h
        exact h

theorem Held.keep (h : p.Held) (e : Event) : (p.keep e).Held := by
  obtain ⟨session, slot⟩ := p
  rw [Held] at h ⊢
  rw [show (Place.keep ⟨session, slot⟩ e).slot = slot from rfl, h]
  cases session with
  | none => rfl
  | some s =>
      simp only [Place.keep, Option.map_some, Option.some.injEq, exists_eq_left']
      have hmissed : (s.miss e).1.active = s.active := rfl
      cases ha : s.active <;> simp [ha, hmissed]

theorem Held.receive (h : p.Held) (e : Event) : (p.receive e t).Held := (h.judge _).keep e

/-- At a held place it makes no difference whether everybody is meant or this one is named. -/
theorem Held.serve_eq (h : p.Held) (e : Event) : p.serve e t = p.receive e t := by
  obtain ⟨session, slot⟩ := p
  cases slot with
  | none => rfl
  | some slot =>
      obtain ⟨s, hs, hactive⟩ := h.mp rfl
      obtain rfl : session = some s := hs
      simp only [Place.serve, Place.receive, Place.tell, Place.judge]
      split
      · rfl
      · simp only [Place.keep, Option.map_some, hactive, if_true]

/-- Only a session that nobody holds expires. -/
theorem Held.expire (h : p.Held) : (p.expire t).Held := by
  obtain ⟨session, slot⟩ := p
  rw [Held] at h ⊢
  rw [show (Place.expire ⟨session, slot⟩ t).slot = slot from rfl, h]
  cases session with
  | none => rfl
  | some s =>
      simp only [Place.expire, Option.filter_some]
      cases ha : s.active <;> simp [Session.expired, ha]

/-- A place that is held is held after any number of events. -/
theorem Held.iterate_serve_eq (h : p.Held) (e : Event) (n : Nat) :
    (fun q => q.serve e t)^[n] p = (fun q => q.receive e t)^[n] p := by
  induction n generalizing p with
  | zero => rfl
  | succ n ih =>
      rw [Function.iterate_succ_apply, Function.iterate_succ_apply, h.serve_eq]
      exact ih (h.receive e)

/-! ## Sound places -/

/-- A held place with room for `n` events, whose buffer is well-formed. -/
structure Sound (p : Place) (n : Nat) : Prop where
  held : p.Held
  wf : ∀ s, p.session = some s → s.Wf ∧ s.buffer.capacity = n

variable {n : Nat}

theorem Sound.vacate (h : p.Sound n) : (p.vacate t).Sound n := by
  refine ⟨h.held.vacate, ?_⟩
  intro s hs
  unfold Place.vacate at hs
  split at hs
  · exact h.wf s hs
  · obtain ⟨s', hs', rfl⟩ := Option.map_eq_some_iff.mp hs
    obtain ⟨hwf, hcap⟩ := h.wf s' hs'
    exact ⟨hwf.disconnect t.now, hcap⟩

theorem Sound.judge (h : p.Sound n) (f : Slot → Slot × Bool) : (p.judge f t).Sound n := by
  refine ⟨h.held.judge f, ?_⟩
  intro s hs
  unfold Place.judge at hs
  split at hs
  · exact h.wf s hs
  · split at hs
    · exact h.vacate.wf s hs
    · exact h.wf s hs

theorem Sound.keep (h : p.Sound n) (e : Event) : (p.keep e).Sound n := by
  refine ⟨h.held.keep e, ?_⟩
  intro s hs
  obtain ⟨s', hs', rfl⟩ := Option.map_eq_some_iff.mp hs
  obtain ⟨hwf, hcap⟩ := h.wf s' hs'
  split
  · exact ⟨hwf, hcap⟩
  · exact ⟨hwf.miss e, (s'.miss_capacity e).trans hcap⟩

theorem Sound.tell (h : p.Sound n) (e : Event) : (p.tell e t).Sound n := h.judge _

theorem Sound.receive (h : p.Sound n) (e : Event) : (p.receive e t).Sound n := (h.tell e).keep e

theorem Sound.expire (h : p.Sound n) : (p.expire t).Sound n := by
  refine ⟨h.held.expire, ?_⟩
  intro s hs
  obtain ⟨hs', -⟩ := Option.filter_eq_some_iff.mp hs
  exact h.wf s hs'

theorem read_session (p : Place) (c : ClientId) : (p.read c).session = p.session := by
  unfold Place.read
  split
  · rfl
  · split <;> rfl

theorem leave_session (p : Place) (c : ClientId) : (p.leave c).session = p.session := by
  unfold Place.leave
  split <;> rfl

end Place

namespace Registry

variable (r : Registry)

/-! ## The registry, one session at a time -/

theorem find?_put (id key : SessionId) (s : Session) :
    (r.put id s).find? key = if key = id then some s else r.find? key :=
  Table.get?_put id key s r.sessions

theorem find?_disconnect (id key : SessionId) :
    (r.disconnect id).find? key
      = if key = id then (r.find? key).map (·.disconnect r.now) else r.find? key := by
  unfold disconnect
  split
  · next h =>
      by_cases hk : key = id
      · rw [if_pos hk, hk, h]
        rfl
      · rw [if_neg hk]
  · next s h =>
      show (r.put id (s.disconnect r.now)).find? key = _
      rw [find?_put]
      by_cases hk : key = id
      · rw [if_pos hk, if_pos hk, hk, h]
        rfl
      · rw [if_neg hk, if_neg hk]

theorem find?_buffer_inactive {id : SessionId} {s : Session} (h : r.find? id = some s)
    (ha : s.active = false) (e : Event) (key : SessionId) :
    (r.buffer id e).find? key = if key = id then some (s.miss e).1 else r.find? key := by
  unfold buffer
  simp only [h, ha, Bool.false_eq_true, if_false]
  cases hm : s.miss e with
  | mk s' evicted => cases evicted <;> exact find?_put r id key s'

theorem find?_buffer (id key : SessionId) (e : Event) :
    (r.buffer id e).find? key
      = if key = id then (r.find? key).map (fun s => if s.active then s else (s.miss e).1)
        else r.find? key := by
  cases h : r.find? id with
  | none =>
      have hsame : (r.buffer id e).find? key = r.find? key := by simp only [buffer, h]; rfl
      rw [hsame]
      split
      · next hk => rw [hk, h]; rfl
      · rfl
  | some s =>
      cases ha : s.active with
      | true =>
          have hsame : r.buffer id e = r := by simp only [buffer, h, ha, if_true]
          rw [hsame]
          split
          · next hk => rw [hk, h]; simp only [Option.map_some, ha, if_true]
          · rfl
      | false =>
          rw [find?_buffer_inactive r h ha]
          split
          · next hk => rw [hk, h]; simp only [Option.map_some, ha, Bool.false_eq_true, if_false]
          · rfl

theorem find?_bufferAll (key : SessionId) (e : Event) :
    (r.bufferAll e).1.find? key
      = (r.find? key).map fun s => if s.active then s else (s.miss e).1 :=
  Table.get?_mapValues (fun _ (s : Session) => if s.active then s else (s.miss e).1) key r.sessions

theorem sweep_sessions :
    r.sweep.1.sessions = r.sessions.filter fun entry => !r.isExpired entry.2 := by
  unfold sweep
  dsimp only
  split <;> rfl

theorem nodup_sweep (hnd : (Table.ids r.sessions).Nodup) :
    (Table.ids r.sweep.1.sessions).Nodup := by
  rw [sweep_sessions]
  exact hnd.sublist (Table.ids_filter_sublist _ r.sessions)

theorem find?_sweep (hnd : (Table.ids r.sessions).Nodup) (key : SessionId) :
    r.sweep.1.find? key = (r.find? key).filter fun s => !r.isExpired s := by
  rw [find?, sweep_sessions]
  exact Table.get?_filter (fun entry : SessionId × Session => !r.isExpired entry.2) hnd key

theorem find?_lookup (id key : SessionId) :
    (r.lookup id).1.find? key
      = if key = id then (r.find? key).filter fun s => !r.isExpired s else r.find? key := by
  unfold lookup
  by_cases hk : key = id
  · subst hk
    rw [if_pos rfl]
    cases h : r.find? key with
    | none => exact h
    | some s =>
        by_cases hx : r.isExpired s = true
        · simp only [hx, if_true, Option.filter_some, Bool.not_true, Bool.false_eq_true, if_false]
          exact (Table.get?_erase key key r.sessions).trans (if_pos rfl)
        · simp only [hx, Bool.false_eq_true, if_false, Option.filter_some, Bool.not_false, if_true,
            h]
  · rw [if_neg hk]
    cases h : r.find? id with
    | none => rfl
    | some s =>
        by_cases hx : r.isExpired s = true
        · simp only [hx, if_true]
          exact (Table.get?_erase id key r.sessions).trans (if_neg hk)
        · simp only [hx, Bool.false_eq_true, if_false]

end Registry

end EventRelay
