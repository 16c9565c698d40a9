import EventRelay.Proofs.Admission

/-!
# The whole history behind a replay

A session keeps the events that fit its ring, and a count of those it has handed out.
A `Ledger` forgets nothing: it has every event that the session missed, how many of them
the client has acknowledged, and how many there were when it last came back. What the
session keeps is the rest of that list from `Ledger.start` on, and its count is what lies
between there and the last return (`Session.Follows`).

`Registry.Life` is the life of one session among all that the registry is asked to do,
as long as no call comes later than the time to live. `Registry.Life.replay_closed_form`
gives every replay as a suffix of the ledger.
-/

namespace EventRelay

/-! ## The ledger -/

/-- All that a session missed, and what its client has said of it. -/
structure Ledger where
  missed : List Event := []
  /-- How many of the events the client has acknowledged. -/
  acknowledged : Nat := 0
  /-- How many there were when the client last came back. -/
  handed : Nat := 0
  /-- Somebody holds the session. -/
  held : Bool := true
  deriving Repr, DecidableEq

namespace Ledger

variable (l : Ledger) (capacity : Nat)

/-- Where the events begin that are neither acknowledged nor displaced. -/
def start : Nat := max l.acknowledged (l.missed.length - capacity)

/-- The events that are neither acknowledged nor displaced. -/
def kept : List Event := l.missed.drop (l.start capacity)

/-- An event comes, and is missed if nobody holds the session. -/
def push (e : Event) : Ledger := if l.held then l else { l with missed := l.missed ++ [e] }

/-- The client goes. -/
def leave : Ledger := { l with held := false }

/-- How many events are acknowledged once a client has presented an id: those up to the
first one with this id, or else, if the id is not there, all that were handed out. -/
def covered : Option EventId → Nat
  | none => l.acknowledged
  | some id =>
    if id = "" then l.acknowledged
    else
      match (l.kept capacity).findIdx? (·.id == id) with
      | some k => l.start capacity + k + 1
      | none => max l.acknowledged l.handed

/-- The client comes back and presents an id. -/
def present (last : Option EventId) : Ledger :=
  { l with acknowledged := l.covered capacity last, handed := l.missed.length, held := true }

/-- What a client that presents an id is handed out. -/
def replay (last : Option EventId) : List Event :=
  ((l.present capacity last).kept capacity).map Event.asReplay

/-- The client has not acknowledged, or been handed out, more than there was. -/
structure Wf : Prop where
  acknowledged_le : l.acknowledged ≤ l.missed.length
  handed_le : l.handed ≤ l.missed.length

variable {l capacity}

theorem Wf.start_le (h : l.Wf) (capacity : Nat) : l.start capacity ≤ l.missed.length :=
  max_le h.acknowledged_le (Nat.sub_le _ _)

theorem kept_suffix : l.kept capacity <:+ l.missed := List.drop_suffix _ _

theorem length_kept : (l.kept capacity).length = l.missed.length - l.start capacity :=
  List.length_drop

theorem length_kept_le : (l.kept capacity).length ≤ capacity := by
  rw [length_kept, start]
  omega

/-- Acknowledging covers what was acknowledged before. -/
theorem acknowledged_le_covered (last : Option EventId) :
    l.acknowledged ≤ l.covered capacity last := by
  unfold covered
  split
  · exact Nat.le_refl _
  · split
    · exact Nat.le_refl _
    · have hstart : l.acknowledged ≤ l.start capacity := le_max_left ..
      split
      · omega
      · exact le_max_left ..

theorem start_le_present (last : Option EventId) :
    l.start capacity ≤ (l.present capacity last).start capacity :=
  max_le_max_right _ (acknowledged_le_covered last)

theorem start_le_push (e : Event) : l.start capacity ≤ (l.push e).start capacity := by
  unfold push
  split
  · exact Nat.le_refl _
  · refine max_le_max_left _ (Nat.sub_le_sub_right ?_ _)
    rw [List.length_append]
    exact Nat.le_add_right ..

end Ledger

/-! ## A session and its ledger -/

namespace Session

variable {s : Session} {l : Ledger}

/-- What the session has is what its ledger says. -/
structure Follows (s : Session) (l : Ledger) : Prop where
  session : s.Wf
  ledger : l.Wf
  held : s.active = l.held
  kept : s.missed = l.kept s.buffer.capacity
  handed : s.unacknowledged = l.handed - l.start s.buffer.capacity

theorem follows_fresh (capacity : Nat) (m : Metadata) (now : Nat) :
    (fresh capacity m now).Follows {} :=
  ⟨wf_fresh .., ⟨Nat.le_refl 0, Nat.le_refl 0⟩, rfl, List.drop_nil.symm, (Nat.zero_sub _).symm⟩

theorem Follows.disconnect (h : s.Follows l) (now : Nat) : (s.disconnect now).Follows l.leave :=
  ⟨h.session.disconnect now, ⟨h.ledger.acknowledged_le, h.ledger.handed_le⟩, rfl, h.kept, h.handed⟩

/-- An event that the session misses is the newest one of the ledger. -/
theorem Follows.miss (h : s.Follows l) (hidle : s.active = false) (e : Event) :
    (s.miss e).1.Follows (l.push e) := by
  have hpush : l.push e = { l with missed := l.missed ++ [e] } := by
    rw [Ledger.push, ← h.held, hidle]
    rfl
  have hstart := h.ledger.start_le s.buffer.capacity
  have hle := h.ledger.acknowledged_le
  have hhanded := h.ledger.handed_le
  have hlen : s.missed.length = l.missed.length - l.start s.buffer.capacity := by
    rw [h.kept, Ledger.length_kept]
  have hlen' : (l.missed ++ [e]).length = l.missed.length + 1 := List.length_append
  rw [hpush]
  refine ⟨h.session.miss e, ⟨?_, ?_⟩, h.held, ?_, ?_⟩
  · simp only [hlen']
    omega
  · simp only [hlen']
    omega
  · rw [h.session.missed_miss, miss_capacity, h.kept, Ledger.kept,
      ← List.drop_append_of_le_length hstart, List.rtake, List.drop_drop, Ledger.kept]
    congr 1
    rw [List.length_drop]
    simp only [Ledger.start, hlen'] at hstart ⊢
    omega
  · rw [h.session.miss_unacknowledged, miss_capacity, hlen, h.handed]
    by_cases hroom : l.missed.length - l.start s.buffer.capacity < s.buffer.capacity
    · rw [if_pos hroom]
      simp only [Ledger.start, hlen'] at hstart hroom ⊢
      omega
    · rw [if_neg hroom]
      simp only [Ledger.start, hlen'] at hstart hroom ⊢
      omega

/-- The ring is cut where the ledger says. -/
theorem Follows.start_present (h : s.Follows l) (last : Option EventId) :
    (l.present s.buffer.capacity last).start s.buffer.capacity
        = l.start s.buffer.capacity + s.acknowledgedBy last ∧
      l.covered s.buffer.capacity last ≤ l.missed.length := by
  have hstart := h.ledger.start_le s.buffer.capacity
  have hle := h.ledger.acknowledged_le
  have hhanded := h.ledger.handed_le
  have hcut : (l.present s.buffer.capacity last).start s.buffer.capacity
      = max (l.covered s.buffer.capacity last) (l.missed.length - s.buffer.capacity) := rfl
  rw [hcut]
  cases last with
  | none => exact ⟨rfl, hle⟩
  | some id =>
      by_cases hid : id = ""
      · subst hid
        exact ⟨rfl, hle⟩
      · cases hfind : (l.kept s.buffer.capacity).findIdx? (·.id == id) with
        | some k =>
            obtain ⟨hk, -⟩ := List.findIdx?_eq_some_iff_getElem.mp hfind
            rw [Ledger.length_kept] at hk
            rw [acknowledgedBy_found hid (h.kept ▸ hfind)]
            simp only [Ledger.covered, hid, hfind, if_false]
            simp only [Ledger.start] at hk hstart ⊢
            omega
        | none =>
            rw [acknowledgedBy_missing hid (h.kept ▸ hfind), h.handed]
            simp only [Ledger.covered, hid, hfind, if_false]
            simp only [Ledger.start] at hstart ⊢
            omega

/-- A client that comes back is handed out what the ledger says. -/
theorem Follows.reclaim (h : s.Follows l) (last : Option EventId) (now : Nat) :
    (s.reclaim last now).Follows (l.present s.buffer.capacity last) := by
  obtain ⟨hcut, hcovered⟩ := h.start_present last
  have hkept : (s.reclaim last now).missed
      = (l.present s.buffer.capacity last).kept s.buffer.capacity := by
    rw [h.session.missed_reclaim, h.kept, Ledger.kept, List.drop_drop, Ledger.kept, hcut]
    rfl
  refine ⟨h.session.reclaim last now, ⟨hcovered, Nat.le_refl _⟩, rfl, ?_, ?_⟩
  · rw [reclaim_capacity, hkept]
  · rw [h.session.reclaim_unacknowledged, hkept, Ledger.length_kept, reclaim_capacity]
    rfl

theorem Follows.replay_eq (h : s.Follows l) (last : Option EventId) (now : Nat) :
    (s.reclaim last now).replay = l.replay s.buffer.capacity last := by
  rw [Session.replay_eq, (h.reclaim last now).kept, reclaim_capacity]
  rfl

theorem Follows.length_buffer (h : s.Follows l) :
    s.buffer.length = (l.kept s.buffer.capacity).length := by
  rw [← h.kept]
  exact h.session.ring.length_eq

end Session

/-! ## Calls of the registry -/

namespace Registry

/-- What a registry may be asked to do, and the passing of time. -/
inductive Call where
  | create (m : Metadata) (draws : List Draw)
  | look (id : SessionId)
  | ask (id : SessionId) (claimant : Metadata)
  | reclaim (id : SessionId) (last : Option EventId)
  | buffer (id : SessionId) (e : Event)
  | bufferAll (e : Event)
  | disconnect (id : SessionId)
  | remove (id : SessionId)
  | sweep
  | wait (span : Nat)

/-- The registry after a call. -/
def call (r : Registry) : Call → Registry
  | .create m draws => (r.create m draws).1
  | .look id => (r.lookup id).1
  | .ask _ _ => r
  | .reclaim id last => (r.reclaim id last).1
  | .buffer id e => r.buffer id e
  | .bufferAll e => (r.bufferAll e).1
  | .disconnect id => r.disconnect id
  | .remove id => (r.remove id).1
  | .sweep => r.sweep.1
  | .wait span => r.setClock (r.now + span)

/-- The life of a session: it was created, and then the calls followed, the latest first.
It was not removed, and at each call its time to live had not passed. -/
inductive Life (id : SessionId) : List Call → Registry → Prop
  | created {r : Registry} {m : Metadata} {draws : List Draw}
      (hmade : (r.create m draws).2.toOption = some id) : Life id [] (r.create m draws).1
  | called {calls : List Call} {r : Registry} (hlife : Life id calls r) (c : Call)
      (hkept : c ≠ .remove id) (hintime : ∀ s ∈ r.find? id, r.isExpired s = false) :
      Life id (c :: calls) (r.call c)

end Registry

namespace Ledger

/-- The ledger of a session after a call of the registry. -/
def enter (capacity : Nat) (id : SessionId) (l : Ledger) : Registry.Call → Ledger
  | .reclaim key last => if key = id then l.present capacity last else l
  | .buffer key e => if key = id then l.push e else l
  | .bufferAll e => l.push e
  | .disconnect key => if key = id then l.leave else l
  | _ => l

/-- The ledger of a session after some calls, the latest first. -/
def ofCalls (capacity : Nat) (id : SessionId) : List Registry.Call → Ledger
  | [] => {}
  | c :: calls => (ofCalls capacity id calls).enter capacity id c

theorem start_le_enter (l : Ledger) (capacity : Nat) (id : SessionId) (c : Registry.Call) :
    l.start capacity ≤ (l.enter capacity id c).start capacity := by
  cases c with
  | reclaim key last =>
      rw [enter]
      split
      · exact start_le_present last
      · exact Nat.le_refl _
  | buffer key e =>
      rw [enter]
      split
      · exact start_le_push e
      · exact Nat.le_refl _
  | bufferAll e => exact start_le_push e
  | disconnect key =>
      rw [enter]
      split <;> exact Nat.le_refl _
  | _ => exact Nat.le_refl _

end Ledger

/-! ## What a call does to one session -/

namespace Registry

variable {r : Registry} {id : SessionId} {s : Session} {l : Ledger}

theorem reclaim_config (r : Registry) (id : SessionId) (last : Option EventId) :
    (r.reclaim id last).1.config = r.config := by
  have hlookup := (Hub.registry_lookup_terms r id).1
  unfold reclaim
  split
  · next r' heq => rw [← hlookup, heq]
  · next r' s heq =>
      rw [← hlookup, heq]
      rfl

theorem call_config (r : Registry) (c : Call) : (r.call c).config = r.config := by
  cases c with
  | create m draws => exact (Hub.create_cases m draws r).1
  | look key => exact (Hub.registry_lookup_terms r key).1
  | reclaim key last => exact r.reclaim_config key last
  | buffer key e => exact (Hub.registry_buffer_terms r key e).1
  | disconnect key => exact (Hub.registry_disconnect_terms r key).1
  | sweep => exact (Hub.registry_sweep_terms r).1
  | _ => rfl

/-- A session whose id is drawn again is not touched. -/
theorem find?_create (m : Metadata) (draws : List Draw) (hs : r.find? id = some s) :
    (r.create m draws).1.find? id = some s := by
  obtain ⟨-, -, ⟨o, -, hsame⟩ | ⟨key, hfree, -, hput⟩⟩ := Hub.create_cases m draws r
  · rw [find?, hsame]
    exact hs
  · have hne : id ≠ key := by
      rintro rfl
      rw [hs] at hfree
      cases hfree
    rw [find?, hput, Table.get?_put, if_neg hne]
    exact hs

theorem find?_reclaim_ne {key : SessionId} (hne : id ≠ key) (last : Option EventId) :
    (r.reclaim key last).1.find? id = r.find? id := by
  have hlookup : (r.lookup key).1.find? id = r.find? id := by
    rw [find?_lookup, if_neg hne]
  unfold reclaim
  split
  · next r' heq => rw [← hlookup, heq]
  · next r' s' heq => rw [find?_put, if_neg hne, ← hlookup, heq]

/-- An entry that is found stays if it is not dropped itself. -/
theorem find?_sweep_kept (hs : r.find? id = some s) (hintime : r.isExpired s = false) :
    r.sweep.1.find? id = some s := by
  have hfilter : ∀ t : Table Session, Table.get? t id = some s →
      Table.get? (t.filter fun entry => !r.isExpired entry.2) id = some s := by
    intro t
    induction t with
    | nil => exact fun h => h
    | cons entry t ih =>
        obtain ⟨key, s'⟩ := entry
        intro h
        rw [Table.get?_cons] at h
        by_cases hk : id = key
        · obtain rfl := Option.some.inj ((if_pos hk).symm.trans h)
          rw [List.filter_cons_of_pos (by simp [hintime]), Table.get?_cons, if_pos hk]
        · rw [if_neg hk] at h
          rw [List.filter_cons]
          split
          · rw [Table.get?_cons, if_neg hk]
            exact ih h
          · exact ih h
  have hkept := hfilter r.sessions hs
  unfold sweep
  dsimp only
  split <;> exact hkept

/-- A call within the time to live leaves the session in the registry, as its ledger says. -/
theorem follows_call (hs : r.find? id = some s) (hfollows : s.Follows l)
    (hintime : r.isExpired s = false) {c : Call} (hkept : c ≠ .remove id) :
    ∃ s', (r.call c).find? id = some s' ∧ s'.buffer.capacity = s.buffer.capacity ∧
      s'.Follows (l.enter s.buffer.capacity id c) := by
  have hmiss : ∀ e, ∃ s', (some s).map (fun s => if s.active then s else (s.miss e).1) = some s' ∧
      s'.buffer.capacity = s.buffer.capacity ∧ s'.Follows (l.push e) := by
    intro e
    cases hactive : s.active with
    | true =>
        have hpush : l.push e = l := by rw [Ledger.push, ← hfollows.held, hactive]; rfl
        exact ⟨s, by simp [hactive], rfl, hpush.symm ▸ hfollows⟩
    | false =>
        exact ⟨(s.miss e).1, by simp [hactive], s.miss_capacity e, hfollows.miss hactive e⟩
  cases c with
  | create m draws => exact ⟨s, find?_create m draws hs, rfl, hfollows⟩
  | look key =>
      refine ⟨s, ?_, rfl, hfollows⟩
      rw [call, find?_lookup, hs]
      split
      · simp [hintime]
      · rfl
  | ask key claimant => exact ⟨s, hs, rfl, hfollows⟩
  | reclaim key last =>
      by_cases hkey : key = id
      · subst hkey
        refine ⟨s.reclaim last r.now, ?_, s.reclaim_capacity last r.now, ?_⟩
        · rw [call, Hub.reclaim_eq r hs hintime, find?_put, if_pos rfl]
        · rw [Ledger.enter, if_pos rfl]
          exact hfollows.reclaim last r.now
      · refine ⟨s, ?_, rfl, ?_⟩
        · rw [call, find?_reclaim_ne (Ne.symm hkey), hs]
        · rw [Ledger.enter, if_neg hkey]
          exact hfollows
  | buffer key e =>
      rw [call, find?_buffer, Ledger.enter, hs]
      by_cases hkey : key = id
      · rw [if_pos hkey.symm, if_pos hkey]
        exact hmiss e
      · rw [if_neg (Ne.symm hkey), if_neg hkey]
        exact ⟨s, rfl, rfl, hfollows⟩
  | bufferAll e =>
      rw [call, find?_bufferAll, hs]
      exact hmiss e
  | disconnect key =>
      rw [call, find?_disconnect, Ledger.enter, hs]
      by_cases hkey : key = id
      · rw [if_pos hkey.symm, if_pos hkey]
        exact ⟨s.disconnect r.now, rfl, rfl, hfollows.disconnect r.now⟩
      · rw [if_neg (Ne.symm hkey), if_neg hkey]
        exact ⟨s, rfl, rfl, hfollows⟩
  | remove key =>
      have hkey : id ≠ key := fun h => hkept (h ▸ rfl)
      refine ⟨s, ?_, rfl, hfollows⟩
      exact (Table.get?_erase key id r.sessions).trans ((if_neg hkey).trans hs)
  | sweep => exact ⟨s, find?_sweep_kept hs hintime, rfl, hfollows⟩
  | wait span => exact ⟨s, hs, rfl, hfollows⟩

/-! ## The life of a session -/

variable {calls : List Call}

/-- All along its life a session has what its ledger says. -/
theorem Life.follows (hlife : Life id calls r) :
    ∃ s, r.find? id = some s ∧ s.buffer.capacity = r.config.bufferCapacity ∧
      s.Follows (Ledger.ofCalls r.config.bufferCapacity id calls) := by
  induction hlife with
  | @created r m draws hmade =>
      obtain ⟨hconfig, -, ⟨o, herror, -⟩ | ⟨key, -, hok, hput⟩⟩ := Hub.create_cases m draws r
      · rw [herror] at hmade
        cases hmade
      · rw [hok] at hmade
        obtain rfl := Option.some.inj hmade
        refine ⟨Session.fresh r.config.bufferCapacity m r.now, ?_, ?_, Session.follows_fresh ..⟩
        · rw [find?, hput, Table.get?_put, if_pos rfl]
        · rw [hconfig]
          exact Ring.capacity_empty _
  | @called calls r hlife c hkept hintime ih =>
      obtain ⟨s, hs, hcapacity, hfollows⟩ := ih
      obtain ⟨s', hs', hcapacity', hfollows'⟩ := follows_call hs hfollows (hintime s hs) hkept
      rw [call_config]
      rw [hcapacity] at hcapacity' hfollows'
      exact ⟨s', hs', hcapacity', hfollows'⟩

/-- **Every replay is a suffix of all that was missed.** At every point of its life a
session keeps what its ledger says, and a client that comes back then, within the time to
live, is handed out the replay of the ledger. It has no more events than the capacity, and
it never begins before what was kept earlier. -/
theorem Life.replay_closed_form (hlife : Life id calls r) (last : Option EventId) :
    ∃ (s : Session) (l : Ledger), l = Ledger.ofCalls r.config.bufferCapacity id calls ∧
      r.find? id = some s ∧ s.active = l.held ∧
      s.missed = l.missed.drop (max l.acknowledged (l.missed.length - r.config.bufferCapacity)) ∧
      s.buffer.length = (l.kept r.config.bufferCapacity).length ∧
      (r.isExpired s = false → ∃ r' s', r.reclaim id last
          = (r', some (s', l.replay r.config.bufferCapacity last)) ∧ r'.find? id = some s' ∧
        s'.buffer.length = (l.replay r.config.bufferCapacity last).length) ∧
      (l.replay r.config.bufferCapacity last).length ≤ r.config.bufferCapacity ∧
      l.replay r.config.bufferCapacity last <:+ l.missed.map Event.asReplay ∧
      ∀ c, l.start r.config.bufferCapacity
        ≤ (Ledger.ofCalls r.config.bufferCapacity id (c :: calls)).start
          r.config.bufferCapacity := by
  obtain ⟨s, hs, hcapacity, hfollows⟩ := hlife.follows
  have hkept := hfollows.kept
  have hlength := hfollows.length_buffer
  have hreplay := hfollows.replay_eq last r.now
  rw [hcapacity] at hkept hlength hreplay
  refine ⟨s, _, rfl, hs, hfollows.held, hkept, hlength, ?_, ?_, ?_, ?_⟩
  · intro hintime
    refine ⟨_, _, by rw [Hub.reclaim_eq r hs hintime, hreplay], ?_, ?_⟩
    · rw [find?_put, if_pos rfl]
    · rw [(hfollows.session.reclaim last r.now).ring.length_eq, ← hreplay, Session.replay_eq,
        List.length_map]
      rfl
  · rw [Ledger.replay, List.length_map]
    exact Ledger.length_kept_le
  · exact Ledger.kept_suffix.map Event.asReplay
  · exact fun c => Ledger.start_le_enter _ _ id c

/-- A session with room for two events misses three. Its client comes back with the id of
the second, and gets the third. -/
theorem replay_of_third_missed : ∃ calls r r' s', Life "S" calls r ∧
    (Ledger.ofCalls r.config.bufferCapacity "S" calls).missed.map (·.id) = ["A", "B", "C"] ∧
    r.reclaim "S" (some "B") = (r', some (s', [⟨"C", "news", [], true⟩])) := by
  have hmade : (({ config := { bufferCapacity := 2 } } : Registry).create {} [.ok "S"]).2.toOption
      = some "S" := by decide +kernel
  have hlife := ((((((((Life.created hmade
    |>.called (.buffer "S" ⟨"unmissed", "news", [], false⟩) nofun (by decide +kernel))
    |>.called (.disconnect "S") nofun (by decide +kernel))
    |>.called (.create {} [.ok "S", .ok "T"]) nofun (by decide +kernel))
    |>.called (.look "S") nofun (by decide +kernel))
    |>.called (.buffer "S" ⟨"A", "news", [], false⟩) nofun (by decide +kernel))
    |>.called .sweep nofun (by decide +kernel))
    |>.called (.bufferAll ⟨"B", "news", [], false⟩) nofun (by decide +kernel))
    |>.called (.wait 1000) nofun (by decide +kernel))
    |>.called (.buffer "S" ⟨"C", "news", [], false⟩) nofun (by decide +kernel)
  obtain ⟨s, l, rfl, hs, -, -, -, hreplay, -⟩ := hlife.replay_closed_form (some "B")
  obtain ⟨r', s', hreclaim, -⟩ := hreplay
    ((show ∀ s ∈ Registry.find? _ "S", Registry.isExpired _ s = false by decide +kernel) s hs)
  exact ⟨_, _, r', s', hlife, by decide +kernel, hreclaim⟩

end Registry

end EventRelay
