import EventRelay.Proofs.Place

/-!
# The hub, one place at a time

Every operation of the hub acts on each place by itself, and this file says how:
`place_dispatch`, `place_reap`, `place_closeAll` and so on give the place of a
session after an operation as a function of its place before. Later proofs follow
one session through these equations and do not look into the two tables again.

Where one operation follows another, the second finds the settings and the clock
(`Hub.terms`) as the first did.
-/

namespace EventRelay

namespace Hub

variable (h : Hub)

def terms : Terms := ⟨h.config, h.registry.config, h.now⟩

/-- The place of a session. -/
def place (id : SessionId) : Place := ⟨h.registry.find? id, Table.get? h.clients id⟩

/-! ## Disconnecting -/

theorem registry_disconnect_terms (r : Registry) (id : SessionId) :
    (r.disconnect id).config = r.config ∧ (r.disconnect id).now = r.now := by
  unfold Registry.disconnect
  split <;> exact ⟨rfl, rfl⟩

/-- The hub after the client of a session was taken out. -/
theorem unregister_some {id : SessionId} {slot : Slot} (hs : Table.get? h.clients id = some slot)
    {client : Option ClientId} (hc : client.all (· == slot.client) = true) :
    h.unregister id client = (({ h with
      clients := Table.erase h.clients id
      closed := slot.client :: h.closed
      registry := h.registry.disconnect id } : Hub).updateCount, true) := by
  simp only [unregister, hs, hc, if_true]

/-- Nobody is taken out if the session has no client, or another one than named. -/
theorem unregister_none {id : SessionId} {client : Option ClientId}
    (hs : ∀ slot, Table.get? h.clients id = some slot → client.all (· == slot.client) = false) :
    h.unregister id client = (h.note (.noLiveClient id), false) := by
  unfold unregister
  split
  · next slot hslot => rw [hs slot hslot]; rfl
  · rfl

theorem terms_unregister (id : SessionId) (client : Option ClientId) :
    (h.unregister id client).1.terms = h.terms := by
  unfold unregister
  split
  · split
    · obtain ⟨hconfig, hnow⟩ := registry_disconnect_terms h.registry id
      show Terms.mk _ (h.registry.disconnect id).config (h.registry.disconnect id).now = _
      rw [hconfig, hnow]
      rfl
    · rfl
  · rfl

theorem place_unregister_some {id : SessionId} {slot : Slot}
    (hs : Table.get? h.clients id = some slot) {client : Option ClientId}
    (hc : client.all (· == slot.client) = true) (key : SessionId) :
    (h.unregister id client).1.place key
      = if key = id then (h.place key).vacate h.terms else h.place key := by
  rw [unregister_some h hs hc]
  show Place.mk ((h.registry.disconnect id).find? key)
    (Table.get? (Table.erase h.clients id) key) = _
  rw [Registry.find?_disconnect, Table.get?_erase]
  by_cases hk : key = id
  · subst hk
    simp only [if_true, place, Place.vacate, hs]
    rfl
  · simp only [hk, if_false, place]

/-- A client is disconnected at one place at most. -/
theorem place_unregister (id : SessionId) (client : Option ClientId) (key : SessionId) :
    (h.unregister id client).1.place key = h.place key ∨
      (h.unregister id client).1.place key = (h.place key).vacate h.terms := by
  by_cases hout : ∃ slot, Table.get? h.clients id = some slot ∧ client.all (· == slot.client) = true
  · obtain ⟨slot, hslot, hc⟩ := hout
    rw [place_unregister_some h hslot hc]
    split
    · exact Or.inr rfl
    · exact Or.inl rfl
  · refine Or.inl ?_
    rw [unregister_none h]
    · rfl
    · intro slot hslot
      rw [← Bool.not_eq_true]
      intro hc
      exact hout ⟨slot, hslot, hc⟩

theorem place_release (id : SessionId) (client : Option ClientId) (key : SessionId) :
    (h.release id client).place key = h.place key ∨
      (h.release id client).place key = (h.place key).vacate h.terms := by
  have hplace : (h.release id client).place key = (h.unregister id client).1.place key := by
    unfold release
    split
    · next h' heq => rw [heq]; rfl
    · next h' heq => rw [heq]
  rw [hplace]
  exact place_unregister h id client key

theorem place_forceDisconnect (id key : SessionId) :
    (h.forceDisconnect id).place key
      = if key = id then (h.place key).vacate h.terms else h.place key := by
  have hplace : (h.forceDisconnect id).place key = (h.unregister id none).1.place key := by
    unfold forceDisconnect
    split
    · next h' heq => rw [heq]; rfl
    · next h' heq => rw [heq]
  rw [hplace]
  cases hs : Table.get? h.clients id with
  | some slot => exact place_unregister_some h hs rfl key
  | none =>
      rw [unregister_none h (fun slot hslot => by rw [hs] at hslot; cases hslot)]
      show h.place key = _
      split
      · next hk => subst hk; simp only [Place.vacate, place, hs]
      · rfl

theorem terms_forceDisconnect (id : SessionId) : (h.forceDisconnect id).terms = h.terms := by
  rw [← terms_unregister h id none]
  unfold forceDisconnect
  split
  · next h' heq => rw [heq]; rfl
  · next h' heq => rw [heq]

theorem terms_foldl_forceDisconnect (ids : List SessionId) (h : Hub) :
    (ids.foldl forceDisconnect h).terms = h.terms := by
  induction ids generalizing h with
  | nil => rfl
  | cons id ids ih => rw [List.foldl_cons, ih, terms_forceDisconnect]

theorem place_foldl_forceDisconnect (ids : List SessionId) (key : SessionId) (h : Hub) :
    (ids.foldl forceDisconnect h).place key
      = if key ∈ ids then (h.place key).vacate h.terms else h.place key := by
  induction ids generalizing h with
  | nil => rw [if_neg List.not_mem_nil, List.foldl_nil]
  | cons id ids ih =>
      rw [List.foldl_cons, ih, terms_forceDisconnect, place_forceDisconnect]
      by_cases hk : key = id
      · subst hk
        rw [if_pos rfl, if_pos (List.mem_cons_self ..), Place.vacate_vacate, ite_self]
      · rw [if_neg hk]
        simp only [List.mem_cons, hk, false_or]

/-! ## Passes over all clients

Offering an event to everyone, and looking for stalled clients, change every slot
and then disconnect some of the clients. -/

/-- The clients after `f` looked at each of them. -/
def judged (f : Slot → Slot × Bool) : Table Slot :=
  h.clients.map fun entry => (entry.1, (f entry.2).1)

/-- The sessions whose clients `f` wants disconnected. -/
def victims (f : Slot → Slot × Bool) : List SessionId :=
  h.clients.filterMap fun entry => if (f entry.2).2 then some entry.1 else none

theorem mem_victims (hnd : (Table.ids h.clients).Nodup) (f : Slot → Slot × Bool) (id : SessionId) :
    id ∈ h.victims f ↔ ∃ slot, Table.get? h.clients id = some slot ∧ (f slot).2 = true := by
  simp only [victims, List.mem_filterMap]
  constructor
  · rintro ⟨⟨key, slot⟩, hmem, hif⟩
    by_cases hf : (f slot).2 = true
    · rw [if_pos hf] at hif
      obtain rfl := Option.some.inj hif
      exact ⟨slot, (Table.mem_iff_get? hnd).mp hmem, hf⟩
    · rw [if_neg hf] at hif
      cases hif
  · rintro ⟨slot, hs, hf⟩
    exact ⟨(id, slot), (Table.mem_iff_get? hnd).mpr hs, if_pos hf⟩

/-- A pass acts on each place by itself. -/
theorem place_pass (hnd : (Table.ids h.clients).Nodup) (f : Slot → Slot × Bool)
    (journal : List Notice) (key : SessionId) :
    ((h.victims f).foldl forceDisconnect
      { h with clients := h.judged f, journal }).place key = (h.place key).judge f h.terms := by
  rw [place_foldl_forceDisconnect]
  have hget : Table.get? (h.judged f) key = (Table.get? h.clients key).map fun slot => (f slot).1 :=
    Table.get?_mapValues (fun _ slot => (f slot).1) key h.clients
  show (if key ∈ h.victims f then (Place.mk (h.registry.find? key)
      (Table.get? (h.judged f) key)).vacate h.terms
    else Place.mk (h.registry.find? key) (Table.get? (h.judged f) key)) = _
  rw [hget]
  cases hs : Table.get? h.clients key with
  | none =>
      have hmem : key ∉ h.victims f := by
        intro hm
        obtain ⟨slot, hslot, -⟩ := (mem_victims h hnd f key).mp hm
        rw [hs] at hslot
        cases hslot
      rw [if_neg hmem]
      simp only [Place.judge, place, hs, Option.map_none]
  | some slot =>
      have hmem : key ∈ h.victims f ↔ (f slot).2 = true := by
        rw [mem_victims h hnd f key]
        constructor
        · rintro ⟨slot', hslot, hf⟩
          rw [hs] at hslot
          exact Option.some.inj hslot ▸ hf
        · intro hf
          exact ⟨slot, hs, hf⟩
      simp only [Place.judge, Place.vacate, place, hs, Option.map_some, hmem]

/-- How an offer of `e` looks at a client. -/
def offering (e : Event) (slot : Slot) : Slot × Bool :=
  let o := slot.offer e h.config.patience h.now
  (o.1, o.2.isFatal)

/-- The replaced-client notice is in no journal that did not have it. -/
def Tidier (h h' : Hub) : Prop :=
  ∀ id c, Notice.clientReplaced id c ∈ h'.journal → Notice.clientReplaced id c ∈ h.journal

theorem offerAll_eq (e : Event) : ∃ journal, h.Tidier { h with journal } ∧ h.offerAll e
    = ({ h with clients := h.judged (h.offering e), journal }, h.victims (h.offering e)) := by
  unfold offerAll
  dsimp only
  rw [List.map_map, List.filterMap_map, List.filterMap_map]
  refine ⟨_, ?_, rfl⟩
  intro id c hmem
  rcases List.mem_append.mp hmem with hfull | hmem
  · obtain ⟨entry, -, heq⟩ := List.mem_filterMap.mp (List.mem_reverse.mp hfull)
    simp only [Function.comp_apply, Option.ite_none_right_eq_some, Option.some.injEq, reduceCtorEq,
      and_false] at heq
  · exact hmem

theorem place_dispatchLive (hnd : (Table.ids h.clients).Nodup) (e : Event) (key : SessionId) :
    (h.dispatchLive e).place key = (h.place key).tell e h.terms := by
  obtain ⟨journal, -, heq⟩ := offerAll_eq h e
  unfold dispatchLive
  rw [heq]
  exact place_pass h hnd (h.offering e) journal key

theorem reap_eq : h.reap = (h.victims fun slot => slot.check h.config.patience h.now).foldl
    forceDisconnect
      { h with clients := h.judged fun slot => slot.check h.config.patience h.now } := by
  unfold reap
  dsimp only
  rw [List.map_map, List.filterMap_map]
  rfl

theorem place_reap (hnd : (Table.ids h.clients).Nodup) (key : SessionId) :
    h.reap.place key = (h.place key).inspect h.terms := by
  rw [reap_eq]
  exact place_pass h hnd _ h.journal key

/-! ## Dispatching -/

theorem registry_buffer_terms (r : Registry) (id : SessionId) (e : Event) :
    (r.buffer id e).config = r.config ∧ (r.buffer id e).now = r.now := by
  unfold Registry.buffer
  split
  · exact ⟨rfl, rfl⟩
  · split
    · exact ⟨rfl, rfl⟩
    · split <;> exact ⟨rfl, rfl⟩

theorem terms_buffer (id : SessionId) (e : Event) :
    ({ h with registry := h.registry.buffer id e } : Hub).terms = h.terms := by
  obtain ⟨hconfig, hnow⟩ := registry_buffer_terms h.registry id e
  show Terms.mk _ (h.registry.buffer id e).config (h.registry.buffer id e).now = _
  rw [hconfig, hnow]
  rfl

theorem place_buffer (id key : SessionId) (e : Event) :
    ({ h with registry := h.registry.buffer id e } : Hub).place key
      = if key = id then (h.place key).keep e else h.place key := by
  show Place.mk ((h.registry.buffer id e).find? key) _ = _
  rw [Registry.find?_buffer]
  split <;> rfl

theorem place_bufferAll (key : SessionId) (e : Event) :
    ({ h with registry := (h.registry.bufferAll e).1 } : Hub).place key = (h.place key).keep e := by
  show Place.mk ((h.registry.bufferAll e).1.find? key) _ = _
  rw [Registry.find?_bufferAll]
  rfl

theorem offer_none {id : SessionId} (hs : Table.get? h.clients id = none) (e : Event) :
    h.offer id e = (h, none) := by
  unfold offer
  rw [hs]

/-- The hub after a session's client was offered an event. -/
theorem offer_some {id : SessionId} {slot : Slot} (hs : Table.get? h.clients id = some slot)
    (e : Event) : ∃ journal, h.Tidier { h with journal } ∧ h.offer id e
      = ({ h with clients := Table.put id (h.offering e slot).1 h.clients, journal },
        some (slot.offer e h.config.patience h.now).2) := by
  unfold offer
  rw [hs]
  dsimp only
  split
  · refine ⟨.channelFull slot.client e.id :: h.journal, ?_, rfl⟩
    intro key c hmem
    rcases List.mem_cons.mp hmem with heq | hmem
    · cases heq
    · exact hmem
  · exact ⟨h.journal, fun _ _ hmem => hmem, rfl⟩

theorem terms_dispatchTo (e : Event) (id : SessionId) : (h.dispatchTo e id).terms = h.terms := by
  unfold dispatchTo
  cases hs : Table.get? h.clients id with
  | none =>
      rw [offer_none h hs]
      exact terms_buffer h id e
  | some slot =>
      obtain ⟨journal, -, heq⟩ := offer_some h hs e
      rw [heq]
      dsimp only
      split
      · rw [terms_buffer, terms_forceDisconnect]
        rfl
      · rfl

/-- One named session is served, and no other place changes. -/
theorem place_dispatchTo_eq (e : Event) (id key : SessionId) :
    (h.dispatchTo e id).place key
      = if key = id then (h.place key).serve e h.terms else h.place key := by
  unfold dispatchTo
  cases hs : Table.get? h.clients id with
  | none =>
      rw [offer_none h hs]
      dsimp only
      rw [place_buffer]
      split
      · next hk =>
          subst hk
          simp only [Place.serve, place, hs]
      · rfl
  | some slot =>
      obtain ⟨journal, -, heq⟩ := offer_some h hs e
      rw [heq]
      dsimp only
      split
      · next hfatal =>
          rw [place_buffer, place_forceDisconnect]
          by_cases hk : key = id
          · subst hk
            rw [if_pos rfl, if_pos rfl, if_pos rfl]
            simp only [Place.serve, Place.vacate, place, hs, hfatal, Table.get?_put, if_true, terms]
            rfl
          · rw [if_neg hk, if_neg hk, if_neg hk]
            simp only [place, Table.get?_put, hk, if_false]
      · next hfatal =>
          by_cases hk : key = id
          · subst hk
            rw [if_pos rfl]
            simp only [Place.serve, place, hs, hfatal, Table.get?_put, if_true, terms, offering,
              Bool.false_eq_true, if_false]
          · rw [if_neg hk]
            simp only [place, Table.get?_put, hk, if_false]

/-- One named session receives the event, and no other place changes. -/
theorem place_dispatchTo (e : Event) (id key : SessionId) (hheld : (h.place id).Held) :
    (h.dispatchTo e id).place key
      = if key = id then (h.place key).receive e h.terms else h.place key := by
  rw [place_dispatchTo_eq]
  split
  · next hk =>
      subst hk
      exact hheld.serve_eq e
  · rfl

end Hub

/-- How many times a message asks for its event to reach a session. -/
def Scope.copies (scope : Scope) (id : SessionId) : Nat :=
  match scope with
  | .everyone => 1
  | .live => 1
  | .sessions ids => ids.count id

namespace Hub

variable (h : Hub)

/-- Each time a session is named, it is served once more. -/
theorem place_foldl_dispatchTo_eq (e : Event) (key : SessionId) (ids : List SessionId) (h : Hub) :
    (ids.foldl (fun h id => h.dispatchTo e id) h).place key
      = (fun p => p.serve e h.terms)^[ids.count key] (h.place key) := by
  induction ids generalizing h with
  | nil => rfl
  | cons id ids ih =>
      rw [List.foldl_cons, ih, terms_dispatchTo, place_dispatchTo_eq, List.count_cons]
      by_cases hk : key = id
      · rw [if_pos hk, if_pos (by simpa using hk.symm), Function.iterate_succ_apply]
      · rw [if_neg hk, if_neg (by simpa using fun e : id = key => hk e.symm), Nat.add_zero]

/-- Each time a session is named, the event reaches it once more. -/
theorem place_foldl_dispatchTo (e : Event) (key : SessionId) (ids : List SessionId) (h : Hub)
    (hheld : ∀ id, (h.place id).Held) :
    (ids.foldl (fun h id => h.dispatchTo e id) h).place key
      = (fun p => p.receive e h.terms)^[ids.count key] (h.place key) := by
  rw [place_foldl_dispatchTo_eq, (hheld key).iterate_serve_eq]

/-- A message to live clients only offers its event. -/
theorem place_dispatch_live (hnd : (Table.ids h.clients).Nodup) (e : Event) (key : SessionId) :
    (h.dispatch ⟨e, .live⟩).place key = (h.place key).tell e h.terms :=
  place_dispatchLive h hnd e key

/-- Any other message reaches a session as often as it asks for it. -/
theorem place_dispatch (hnd : (Table.ids h.clients).Nodup) (hheld : ∀ id, (h.place id).Held)
    {m : Message} (hscope : m.scope ≠ .live) (key : SessionId) :
    (h.dispatch m).place key
      = (fun p => p.receive m.event h.terms)^[m.scope.copies key] (h.place key) := by
  obtain ⟨e, scope⟩ := m
  cases scope with
  | everyone =>
      show ({ h.dispatchLive e with
        registry := ((h.dispatchLive e).registry.bufferAll e).1 } : Hub).place key = _
      rw [place_bufferAll, place_dispatchLive h hnd]
      rfl
  | live => exact absurd rfl hscope
  | sessions ids => exact place_foldl_dispatchTo e key ids h hheld

/-! ## The end of the loop -/

theorem foldl_disconnect_terms (ids : List SessionId) (r : Registry) :
    (ids.foldl Registry.disconnect r).config = r.config
      ∧ (ids.foldl Registry.disconnect r).now = r.now := by
  induction ids generalizing r with
  | nil => exact ⟨rfl, rfl⟩
  | cons id ids ih =>
      obtain ⟨hconfig, hnow⟩ := registry_disconnect_terms r id
      obtain ⟨hconfig', hnow'⟩ := ih (r.disconnect id)
      exact ⟨hconfig'.trans hconfig, hnow'.trans hnow⟩

theorem find?_foldl_disconnect (ids : List SessionId) (key : SessionId) (r : Registry) :
    (ids.foldl Registry.disconnect r).find? key
      = if key ∈ ids then (r.find? key).map (·.disconnect r.now) else r.find? key := by
  induction ids generalizing r with
  | nil => rw [if_neg List.not_mem_nil, List.foldl_nil]
  | cons id ids ih =>
      rw [List.foldl_cons, ih, Registry.find?_disconnect, (registry_disconnect_terms r id).2]
      by_cases hk : key = id
      · subst hk
        rw [if_pos rfl, if_pos (List.mem_cons_self ..), Option.map_map]
        split <;> rfl
      · rw [if_neg hk]
        simp only [List.mem_cons, hk, false_or]

theorem terms_closeAll : h.closeAll.terms = h.terms := by
  obtain ⟨hconfig, hnow⟩ := foldl_disconnect_terms (Table.ids h.clients) h.registry
  show Terms.mk h.config ((Table.ids h.clients).foldl Registry.disconnect h.registry).config
    ((Table.ids h.clients).foldl Registry.disconnect h.registry).now = _
  rw [hconfig, hnow]
  rfl

theorem place_closeAll (key : SessionId) : h.closeAll.place key = (h.place key).vacate h.terms := by
  show Place.mk (((Table.ids h.clients).foldl Registry.disconnect h.registry).find? key) none = _
  rw [find?_foldl_disconnect]
  cases hs : Table.get? h.clients key with
  | none =>
      rw [if_neg (Table.get?_eq_none_iff.mp hs)]
      simp only [Place.vacate, place, hs]
  | some slot =>
      rw [if_pos (Table.mem_ids_of_get? hs)]
      simp only [Place.vacate, place, hs]
      rfl

/-! ## The client's side -/

/-- The slot of a handle is the one under its session, if it is that handle's. -/
theorem slot?_eq (c : Client) :
    h.slot? c = (h.place c.session).slot.filter (·.client == c.id) := rfl

theorem place_read (c : Client) (key : SessionId) :
    (h.read c).1.place key = if key = c.session then (h.place key).read c.id else h.place key := by
  unfold read
  rw [slot?_eq]
  split
  · next hslot =>
      split
      · next hk => subst hk; simp only [Place.read, hslot]
      · rfl
  · next slot hslot =>
      split
      · next hq =>
          split
          · next hk => subst hk; simp only [Place.read, hslot, hq]
          · rfl
      · next e rest hq =>
          by_cases hk : key = c.session
          · subst hk
            rw [if_pos rfl]
            simp only [Place.read, hslot, hq]
            simp only [place, Table.get?_put, if_true]
          · rw [if_neg hk]
            simp only [place, Table.get?_put, hk, if_false]

theorem place_leave (c : Client) (key : SessionId) :
    (h.leave c).place key = if key = c.session then (h.place key).leave c.id else h.place key := by
  unfold leave
  rw [slot?_eq]
  split
  · next hslot =>
      split
      · next hk => subst hk; simp only [Place.leave, hslot]
      · rfl
  · next slot hslot =>
      by_cases hk : key = c.session
      · subst hk
        rw [if_pos rfl]
        simp only [Place.leave, hslot]
        simp only [place, Table.get?_put, if_true]
      · rw [if_neg hk]
        simp only [place, Table.get?_put, hk, if_false]

/-! ## Expiry -/

theorem registry_sweep_terms (r : Registry) :
    r.sweep.1.config = r.config ∧ r.sweep.1.now = r.now := by
  unfold Registry.sweep
  dsimp only
  split <;> exact ⟨rfl, rfl⟩

theorem registry_lookup_terms (r : Registry) (id : SessionId) :
    (r.lookup id).1.config = r.config ∧ (r.lookup id).1.now = r.now := by
  unfold Registry.lookup
  split
  · exact ⟨rfl, rfl⟩
  · split <;> exact ⟨rfl, rfl⟩

theorem place_sweep (hnd : (Table.ids h.registry.sessions).Nodup) (key : SessionId) :
    ({ h with registry := h.registry.sweep.1 } : Hub).place key = (h.place key).expire h.terms := by
  show Place.mk (h.registry.sweep.1.find? key) _ = _
  rw [Registry.find?_sweep h.registry hnd]
  rfl

theorem place_lookup (id key : SessionId) :
    ({ h with registry := (h.registry.lookup id).1 } : Hub).place key
      = if key = id then (h.place key).expire h.terms else h.place key := by
  show Place.mk ((h.registry.lookup id).1.find? key) _ = _
  rw [Registry.find?_lookup]
  split <;> rfl

end Hub

end EventRelay
