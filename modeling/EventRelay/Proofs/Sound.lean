import EventRelay.Proofs.Admission
import EventRelay.Proofs.Run

/-!
# What holds at every point of a run

`Hub.Sound hs h` is the invariant of the hub, `hs` being the handles given out so
far: the two tables agree on who is connected, every slot belongs to a handle, and a
handle that is not in the table has been told so. There is one lemma for each way in
which an operation changes the hub (`Sound.retouched`, `Sound.registry`,
`Sound.unregister`, `Sound.admitted`); an operation is a chain of such changes
(`Sound.act`), and a run a chain of operations (`Run.sound`).
-/

namespace EventRelay

namespace Hub

/-- The client holds its session. -/
def Serves (h : Hub) (c : Client) : Prop :=
  ∃ slot, Table.get? h.clients c.session = some slot ∧ slot.client = c.id

/-- The invariant of a hub that has given out the handles `hs`. -/
structure Sound (hs : List Client) (h : Hub) : Prop where
  clients_nodup : (Table.ids h.clients).Nodup
  sessions_nodup : (Table.ids h.registry.sessions).Nodup
  place : ∀ id, (h.place id).Sound h.registry.config.bufferCapacity
  count : h.liveCount = h.clients.length
  owned : ∀ id slot, Table.get? h.clients id = some slot →
    ∃ c ∈ hs, c.session = id ∧ c.id = slot.client
  closed_iff : ∀ c ∈ hs, c.id ∈ h.closed ↔ ¬ h.Serves c
  closed_known : ∀ x ∈ h.closed, ∃ c ∈ hs, c.id = x
  names : (hs.map (·.id)).Nodup
  tidy : ∀ id c, Notice.clientReplaced id c ∉ h.journal

/-- The slots changed, but neither the sessions they are for nor their clients. -/
structure Retouched (h h' : Hub) : Prop where
  sessions : h'.registry.sessions = h.registry.sessions
  ids : Table.ids h'.clients = Table.ids h.clients
  client : ∀ id slot', Table.get? h'.clients id = some slot' →
    ∃ slot, Table.get? h.clients id = some slot ∧ slot'.client = slot.client
  closed : h'.closed = h.closed
  count : h'.liveCount = h.liveCount
  terms : h'.terms = h.terms
  journal : h.Tidier h'

variable {hs : List Client} {h h' : Hub}

theorem Untouched.retouched (hu : h.Untouched h') : h.Retouched h' where
  sessions := hu.sessions
  ids := by rw [hu.clients]
  client id slot hslot := ⟨slot, hu.clients ▸ hslot, rfl⟩
  closed := hu.closed
  count := hu.count
  terms := hu.terms
  journal := hu.journal

theorem untouched_note (h : Hub) {n : Notice} (hn : ∀ id c, n ≠ .clientReplaced id c) :
    h.Untouched (h.note n) :=
  ⟨rfl, rfl, rfl, rfl, rfl, fun id c hmem =>
    (List.mem_cons.mp hmem).resolve_left fun heq => hn id c heq.symm⟩

/-- Handles that are the same are known by their names. -/
theorem Sound.handle_ext (hS : h.Sound hs) {c c' : Client} (hc : c ∈ hs) (hc' : c' ∈ hs)
    (hid : c.id = c'.id) : c = c' := List.inj_on_of_nodup_map hS.names hc hc' hid

/-! ## One lemma for each kind of change -/

theorem Sound.retouched (hS : h.Sound hs) (hr : h.Retouched h') : h'.Sound hs := by
  have hfind : ∀ id, h'.registry.find? id = h.registry.find? id := by
    intro id
    rw [Registry.find?, Registry.find?, hr.sessions]
  have hsome : ∀ id, (Table.get? h'.clients id).isSome = (Table.get? h.clients id).isSome := by
    intro id
    rw [Bool.eq_iff_iff, Table.get?_isSome, Table.get?_isSome, hr.ids]
  have hserves : ∀ c, h'.Serves c ↔ h.Serves c := by
    intro c
    constructor
    · rintro ⟨slot', hslot', hclient'⟩
      obtain ⟨slot, hslot, hsame⟩ := hr.client _ _ hslot'
      exact ⟨slot, hslot, hsame ▸ hclient'⟩
    · rintro ⟨slot, hslot, hclient⟩
      have hin := hsome c.session
      rw [hslot, Option.isSome_some] at hin
      obtain ⟨slot', hslot'⟩ := Option.isSome_iff_exists.mp hin
      obtain ⟨slot₀, hslot₀, hsame⟩ := hr.client _ _ hslot'
      obtain rfl := Option.some.inj (hslot.symm.trans hslot₀)
      exact ⟨slot', hslot', hsame.trans hclient⟩
  refine ⟨hr.ids ▸ hS.clients_nodup, hr.sessions ▸ hS.sessions_nodup,
    fun id => ⟨?_, ?_⟩, ?_, ?_, ?_, ?_, hS.names, ?_⟩
  · have hheld := (hS.place id).held
    rw [Place.Held] at hheld ⊢
    show (Table.get? h'.clients id).isSome = true ↔ ∃ s, h'.registry.find? id = some s ∧ _
    rw [hsome, hfind]
    exact hheld
  · intro s hs
    rw [show h'.registry.config = h.registry.config from congrArg Terms.sessions hr.terms]
    exact (hS.place id).wf s ((hfind id).symm.trans hs)
  · have hlen : h'.clients.length = h.clients.length := by
      simpa [Table.ids] using congrArg List.length hr.ids
    rw [hr.count, hlen]
    exact hS.count
  · intro id slot hslot
    obtain ⟨slot₀, hslot₀, hsame⟩ := hr.client id slot hslot
    rw [hsame]
    exact hS.owned id slot₀ hslot₀
  · intro c hc
    rw [hr.closed, hserves]
    exact hS.closed_iff c hc
  · intro x hx
    exact hS.closed_known x (hr.closed ▸ hx)
  · intro id c hmem
    exact hS.tidy id c (hr.journal id c hmem)

/-- Sessions were changed that nobody holds, or forgotten. -/
theorem Sound.registry (hS : h.Sound hs) (r : Registry) (hnodup : (Table.ids r.sessions).Nodup)
    (hplace : ∀ id, (({ h with registry := r } : Hub).place id).Sound r.config.bufferCapacity) :
    Sound hs { h with registry := r } where
  clients_nodup := hS.clients_nodup
  sessions_nodup := hnodup
  place := hplace
  count := hS.count
  owned := hS.owned
  closed_iff := hS.closed_iff
  closed_known := hS.closed_known
  names := hS.names
  tidy := hS.tidy

theorem ids_disconnect (r : Registry) (id : SessionId) :
    Table.ids (r.disconnect id).sessions = Table.ids r.sessions := by
  unfold Registry.disconnect
  split
  · rfl
  · next s hs => exact (Table.ids_put id _ r.sessions).trans (if_pos (Table.mem_ids_of_get? hs))

/-- A client was disconnected. Its handle is the one that is told. -/
theorem Sound.unregister (hS : h.Sound hs) (id : SessionId) (client : Option ClientId) :
    (h.unregister id client).1.Sound hs := by
  by_cases hout : ∃ slot, Table.get? h.clients id = some slot ∧ client.all (· == slot.client) = true
  case neg =>
    rw [unregister_none h]
    · exact hS.retouched (untouched_note h (fun _ _ => Notice.noConfusion)).retouched
    · intro slot hslot
      rw [← Bool.not_eq_true]
      intro hc
      exact hout ⟨slot, hslot, hc⟩
  case pos =>
    obtain ⟨slot, hslot, hc⟩ := hout
    have hplace := place_unregister_some h hslot hc
    have hterms := terms_unregister h id client
    rw [unregister_some h hslot hc] at hplace hterms ⊢
    have hget : ∀ key, Table.get? (Table.erase h.clients id) key
        = if key = id then none else Table.get? h.clients key :=
      fun key => Table.get?_erase id key h.clients
    obtain ⟨c₀, hc₀, hsession, hname⟩ := hS.owned id slot hslot
    refine ⟨Table.nodup_erase hS.clients_nodup id, (ids_disconnect _ id).symm ▸ hS.sessions_nodup,
      ?_, rfl, ?_, ?_, ?_, hS.names, hS.tidy⟩
    · intro key
      have hconfig := congrArg (fun t => t.sessions.bufferCapacity) hterms
      rw [hplace key]
      refine hconfig ▸ ?_
      split
      · exact (hS.place key).vacate
      · exact hS.place key
    · intro key slot' hslot'
      rw [show (Hub.updateCount _).clients = Table.erase h.clients id from rfl, hget] at hslot'
      split at hslot'
      · cases hslot'
      · exact hS.owned key slot' hslot'
    · intro c hmem
      show c.id ∈ slot.client :: h.closed ↔ ¬ ∃ slot',
        Table.get? (Table.erase h.clients id) c.session = some slot' ∧ slot'.client = c.id
      rw [List.mem_cons, hS.closed_iff c hmem, hget]
      constructor
      · rintro (heq | hno) ⟨slot', hslot', hclient⟩
        · obtain rfl := hS.handle_ext hmem hc₀ (heq.trans hname.symm)
          rw [if_pos hsession] at hslot'
          cases hslot'
        · split at hslot'
          · cases hslot'
          · exact hno ⟨slot', hslot', hclient⟩
      · intro hno
        by_cases hserves : h.Serves c
        · obtain ⟨slot', hslot', hclient⟩ := hserves
          by_cases hk : c.session = id
          · rw [hk, hslot] at hslot'
            obtain rfl := Option.some.inj hslot'
            exact Or.inl hclient.symm
          · exact absurd ⟨slot', (if_neg hk).trans hslot', hclient⟩ hno
        · exact Or.inr hserves
    · intro x hx
      rcases List.mem_cons.mp hx with rfl | hx
      · exact ⟨c₀, hc₀, hname⟩
      · exact hS.closed_known x hx

/-- A client was admitted under a session id that had none. -/
theorem Sound.admitted (hS : h.Sound hs) {g : Registration} {id : SessionId} {s : Session}
    {reconnected : Bool} (hin : h.Admitted g id s reconnected h')
    (hfree : Table.get? h.clients id = none) (hactive : s.active = true)
    (hwf : s.Wf ∧ s.buffer.capacity = h.registry.config.bufferCapacity)
    (hnew : ∀ c ∈ hs, c.id ≠ g.client) (replayed : Nat) :
    h'.Sound (⟨g.client, id, reconnected, replayed⟩ :: hs) := by
  have hget : ∀ key, Table.get? h'.clients key
      = if key = id then some (h.opening g id reconnected s.replay)
        else Table.get? h.clients key := by
    intro key
    rw [hin.clients, Table.get?_put]
  have hconfig : h'.registry.config = h.registry.config := congrArg Terms.sessions hin.terms
  refine ⟨hin.clients ▸ Table.nodup_put hS.clients_nodup id _,
    hin.sessions ▸ Table.nodup_put hS.sessions_nodup id s, ?_, hin.count, ?_, ?_, ?_, ?_, ?_⟩
  · intro key
    rw [hin.place, hconfig]
    split
    · refine ⟨⟨fun _ => ⟨s, rfl, hactive⟩, fun _ => rfl⟩, ?_⟩
      intro s' hs'
      obtain rfl := Option.some.inj hs'
      exact hwf
    · exact hS.place key
  · intro key slot hslot
    rw [hget] at hslot
    split at hslot
    · next hk =>
        obtain rfl := Option.some.inj hslot
        exact ⟨_, List.mem_cons_self .., hk.symm, rfl⟩
    · obtain ⟨c, hc, hsession, hname⟩ := hS.owned key slot hslot
      exact ⟨c, List.mem_cons_of_mem _ hc, hsession, hname⟩
  · intro c hmem
    rw [hin.closed]
    rcases List.mem_cons.mp hmem with rfl | hmem
    · constructor
      · intro hclosed
        obtain ⟨c, hc, hname⟩ := hS.closed_known _ hclosed
        exact absurd hname (hnew c hc)
      · intro hno
        exact absurd ⟨_, (hget id).trans (if_pos rfl), rfl⟩ hno
    · rw [hS.closed_iff c hmem, not_iff_not, Serves, Serves, hget]
      by_cases hk : c.session = id
      · rw [if_pos hk, hk, hfree]
        constructor
        · rintro ⟨slot, hslot, -⟩
          cases hslot
        · rintro ⟨slot, hslot, hclient⟩
          obtain rfl := Option.some.inj hslot
          exact absurd hclient.symm (hnew c hmem)
      · rw [if_neg hk]
  · intro x hx
    obtain ⟨c, hc, hname⟩ := hS.closed_known x (hin.closed ▸ hx)
    exact ⟨c, List.mem_cons_of_mem _ hc, hname⟩
  · rw [List.map_cons, List.nodup_cons]
    refine ⟨?_, hS.names⟩
    intro hmem
    obtain ⟨c, hc, hname⟩ := List.mem_map.mp hmem
    exact hnew c hc hname
  · intro key c hmem
    exact hS.tidy key c (hin.journal key c hmem)

/-! ## Disconnecting -/

theorem Sound.note (hS : h.Sound hs) {n : Notice} (hn : ∀ id c, n ≠ .clientReplaced id c) :
    (h.note n).Sound hs := hS.retouched (untouched_note h hn).retouched

theorem Sound.forceDisconnect (hS : h.Sound hs) (id : SessionId) :
    (h.forceDisconnect id).Sound hs := by
  have hout := hS.unregister id none
  unfold Hub.forceDisconnect
  split
  · next h' heq =>
      rw [heq] at hout
      exact hout.note fun _ _ => Notice.noConfusion
  · next h' heq =>
      rw [heq] at hout
      exact hout

theorem Sound.release (hS : h.Sound hs) (id : SessionId) (client : Option ClientId) :
    (h.release id client).Sound hs := by
  have hout := hS.unregister id client
  unfold Hub.release
  split
  · next h' heq =>
      rw [heq] at hout
      exact hout.note fun _ _ => Notice.noConfusion
  · next h' heq =>
      rw [heq] at hout
      exact hout

theorem Sound.foldl_forceDisconnect (hS : h.Sound hs) (ids : List SessionId) :
    (ids.foldl Hub.forceDisconnect h).Sound hs := by
  induction ids generalizing h with
  | nil => exact hS
  | cons id ids ih => exact ih (hS.forceDisconnect id)

theorem ids_foldl_disconnect (ids : List SessionId) (r : Registry) :
    Table.ids (ids.foldl Registry.disconnect r).sessions = Table.ids r.sessions := by
  induction ids generalizing r with
  | nil => rfl
  | cons id ids ih => exact (ih (r.disconnect id)).trans (ids_disconnect r id)

/-- After the end of the loop nobody holds a session, and everybody was told. -/
theorem Sound.closeAll (hS : h.Sound hs) : h.closeAll.Sound hs := by
  refine ⟨List.nodup_nil, (ids_foldl_disconnect _ h.registry).symm ▸ hS.sessions_nodup, ?_, rfl, ?_,
    ?_, ?_, hS.names, ?_⟩
  · intro key
    have hconfig := congrArg (fun t => t.sessions.bufferCapacity) (terms_closeAll h)
    rw [place_closeAll]
    exact hconfig ▸ (hS.place key).vacate
  · intro key slot hslot
    cases hslot
  · intro c hc
    show c.id ∈ h.clients.map (·.2.client) ++ h.closed ↔
      ¬ ∃ slot : Slot, none = some slot ∧ slot.client = c.id
    have hno : ¬ ∃ slot : Slot, none = some slot ∧ slot.client = c.id := by
      rintro ⟨slot, hslot, -⟩
      cases hslot
    rw [List.mem_append, hS.closed_iff c hc]
    refine ⟨fun _ => hno, ?_⟩
    intro _
    by_cases hserves : h.Serves c
    · obtain ⟨slot, hslot, hclient⟩ := hserves
      exact Or.inl (List.mem_map.mpr ⟨_, Table.mem_of_get? hslot, hclient⟩)
    · exact Or.inr hserves
  · intro x hx
    rcases List.mem_append.mp hx with hx | hx
    · obtain ⟨⟨key, slot⟩, hmem, rfl⟩ := List.mem_map.mp hx
      obtain ⟨c, hc, -, hname⟩ := hS.owned key slot (Table.get?_of_mem hS.clients_nodup hmem)
      exact ⟨c, hc, hname⟩
    · exact hS.closed_known x hx
  · intro id c hmem
    exact hS.tidy id c ((List.mem_cons.mp hmem).resolve_left Notice.noConfusion)

/-! ## Slots that change in place -/

/-- Every slot was looked at, and still is the same client's. -/
theorem judged_retouched {f : Slot → Slot × Bool} (hf : ∀ slot, (f slot).1.client = slot.client)
    {journal : List Notice} (hjournal : h.Tidier { h with journal }) :
    h.Retouched { h with clients := h.judged f, journal } := by
  refine ⟨rfl, Table.ids_mapValues (fun _ slot => (f slot).1) h.clients, ?_, rfl, rfl, rfl,
    hjournal⟩
  intro id slot' hslot'
  have hget : Table.get? (h.judged f) id = (Table.get? h.clients id).map fun slot => (f slot).1 :=
    Table.get?_mapValues (fun _ slot => (f slot).1) id h.clients
  obtain ⟨slot, hslot, rfl⟩ := Option.map_eq_some_iff.mp (hget.symm.trans hslot')
  exact ⟨slot, hslot, hf slot⟩

theorem Sound.judged (hS : h.Sound hs) {f : Slot → Slot × Bool}
    (hf : ∀ slot, (f slot).1.client = slot.client) {journal : List Notice}
    (hjournal : h.Tidier { h with journal }) :
    Sound hs { h with clients := h.judged f, journal } :=
  hS.retouched (judged_retouched hf hjournal)

/-- One slot was changed, and still is the same client's. -/
theorem put_slot_retouched {id : SessionId} {slot : Slot}
    (hslot : Table.get? h.clients id = some slot) (slot' : Slot)
    (hclient : slot'.client = slot.client)
    {journal : List Notice} (hjournal : h.Tidier { h with journal }) :
    h.Retouched { h with clients := Table.put id slot' h.clients, journal } := by
  refine ⟨rfl, ?_, ?_, rfl, rfl, rfl, hjournal⟩
  · exact (Table.ids_put id slot' h.clients).trans (if_pos (Table.mem_ids_of_get? hslot))
  · intro key slot₁ hslot₁
    have hget : (if key = id then some slot' else Table.get? h.clients key) = some slot₁ :=
      (Table.get?_put id key slot' h.clients).symm.trans hslot₁
    split at hget
    · next hk =>
        obtain rfl := Option.some.inj hget
        exact ⟨slot, hk ▸ hslot, hclient⟩
    · exact ⟨slot₁, hget, rfl⟩

theorem Sound.put_slot (hS : h.Sound hs) {id : SessionId} {slot : Slot}
    (hslot : Table.get? h.clients id = some slot) (slot' : Slot)
    (hclient : slot'.client = slot.client)
    {journal : List Notice} (hjournal : h.Tidier { h with journal }) :
    Sound hs { h with clients := Table.put id slot' h.clients, journal } :=
  hS.retouched (put_slot_retouched hslot slot' hclient hjournal)

theorem offering_client (e : Event) (slot : Slot) : (h.offering e slot).1.client = slot.client := by
  unfold offering Slot.offer
  split
  · rfl
  · split <;> rfl

theorem check_client (slot : Slot) (patience now : Nat) :
    (slot.check patience now).1.client = slot.client := by
  unfold Slot.check
  split
  · rfl
  · split <;> rfl

theorem Sound.reap (hS : h.Sound hs) : h.reap.Sound hs := by
  rw [reap_eq]
  refine foldl_forceDisconnect ?_ _
  exact hS.judged (fun slot => check_client slot _ _) fun _ _ hmem => hmem

theorem Sound.read (hS : h.Sound hs) (c : Client) : (h.read c).1.Sound hs := by
  unfold Hub.read
  split
  · exact hS
  · next slot hslot =>
      split
      · exact hS
      · next e rest hqueue =>
          exact hS.put_slot (Option.filter_eq_some_iff.mp hslot).1
            { slot with channel := { slot.channel with queue := rest } } rfl fun _ _ hmem => hmem

theorem Sound.leave (hS : h.Sound hs) (c : Client) : (h.leave c).Sound hs := by
  unfold Hub.leave
  split
  · exact hS
  · next slot hslot =>
      exact hS.put_slot (Option.filter_eq_some_iff.mp hslot).1
        { slot with channel := { slot.channel with attended := false } } rfl fun _ _ hmem => hmem

/-! ## Delivering -/

theorem ids_buffer (r : Registry) (id : SessionId) (e : Event) :
    Table.ids (r.buffer id e).sessions = Table.ids r.sessions := by
  unfold Registry.buffer
  split
  · rfl
  · next s hs =>
      have hput : ∀ s', Table.ids (Table.put id s' r.sessions) = Table.ids r.sessions := by
        intro s'
        exact (Table.ids_put id s' r.sessions).trans (if_pos (Table.mem_ids_of_get? hs))
      split
      · rfl
      · split <;> exact hput _

theorem ids_bufferAll (r : Registry) (e : Event) :
    Table.ids (r.bufferAll e).1.sessions = Table.ids r.sessions :=
  Table.ids_mapValues (fun _ (s : Session) => if s.active then s else (s.miss e).1) r.sessions

theorem Sound.buffer (hS : h.Sound hs) (id : SessionId) (e : Event) :
    Sound hs { h with registry := h.registry.buffer id e } := by
  refine hS.registry _ ((ids_buffer h.registry id e).symm ▸ hS.sessions_nodup) ?_
  intro key
  rw [(registry_buffer_terms h.registry id e).1, place_buffer]
  split
  · exact (hS.place key).keep e
  · exact hS.place key

theorem Sound.bufferAll (hS : h.Sound hs) (e : Event) :
    Sound hs { h with registry := (h.registry.bufferAll e).1 } := by
  refine hS.registry _ ((ids_bufferAll h.registry e).symm ▸ hS.sessions_nodup) ?_
  intro key
  rw [place_bufferAll]
  exact (hS.place key).keep e

theorem Sound.dispatchLive (hS : h.Sound hs) (e : Event) : (h.dispatchLive e).Sound hs := by
  obtain ⟨journal, hjournal, heq⟩ := offerAll_eq h e
  unfold Hub.dispatchLive
  rw [heq]
  exact foldl_forceDisconnect (hS.judged (offering_client e) hjournal) _

theorem Sound.dispatchTo (hS : h.Sound hs) (e : Event) (id : SessionId) :
    (h.dispatchTo e id).Sound hs := by
  unfold Hub.dispatchTo
  cases hslot : Table.get? h.clients id with
  | none =>
      rw [offer_none h hslot]
      exact hS.buffer id e
  | some slot =>
      obtain ⟨journal, hjournal, heq⟩ := offer_some h hslot e
      have hoffered := hS.put_slot hslot (h.offering e slot).1 (offering_client e slot) hjournal
      rw [heq]
      dsimp only
      split
      · exact (hoffered.forceDisconnect id).buffer id e
      · exact hoffered

theorem Sound.foldl_dispatchTo (hS : h.Sound hs) (e : Event) (ids : List SessionId) :
    (ids.foldl (fun h id => h.dispatchTo e id) h).Sound hs := by
  induction ids generalizing h with
  | nil => exact hS
  | cons id ids ih => exact ih (hS.dispatchTo e id)

theorem Sound.dispatch (hS : h.Sound hs) (m : Message) : (h.dispatch m).Sound hs := by
  unfold Hub.dispatch
  split
  · exact (hS.dispatchLive m.event).bufferAll m.event
  · exact hS.dispatchLive m.event
  · exact hS.foldl_dispatchTo m.event _

/-! ## Registering -/

/-- Who has no session has no client. -/
theorem Sound.free (hS : h.Sound hs) {id : SessionId} (hs : h.registry.find? id = none) :
    Table.get? h.clients id = none := by
  refine Option.not_isSome_iff_eq_none.mp ?_
  intro hsome
  obtain ⟨s, hsession, -⟩ := (hS.place id).held.mp hsome
  cases hs.symm.trans hsession

theorem Sound.admission (hS : h.Sound hs) {g : Registration} {h' : Hub}
    {answer : Except Obstacle Client} (hadm : h.Admission g (h', answer))
    (hnew : ∀ c ∈ hs, c.id ≠ g.client) : h'.Sound (answer.toOption.toList ++ hs) := by
  cases hadm with
  | refused hclaim hout => exact hS.retouched hout.retouched
  | @reclaimed _ id s hclaim hsession hin =>
      obtain ⟨-, hfree, -⟩ := claim?_eq_some h hclaim
      obtain ⟨hwf, hcap⟩ := (hS.place id).wf s hsession
      exact hS.admitted hin hfree rfl
        ⟨hwf.reclaim g.lastEventId h.now, (s.reclaim_capacity g.lastEventId h.now).trans hcap⟩
          hnew _
  | created hclaim hsession hin =>
      exact hS.admitted hin (hS.free hsession) rfl
        ⟨Session.wf_fresh .., Ring.capacity_empty _⟩ hnew _

theorem Sound.register (hS : h.Sound hs) {g : Registration} (hnew : ∀ c ∈ hs, c.id ≠ g.client)
    (hfault : ∀ f, (h.register g).2 ≠ .error (.fault f)) :
    (h.register g).1.Sound ((h.register g).2.toOption.toList ++ hs) := by
  rw [register_answer] at hfault ⊢
  have hcases := accept_cases h g (fun _ => hS.free) hfault
  unfold Hub.register
  cases haccept : h.accept g with
  | mk h' answer =>
      rw [haccept] at hcases
      have hadm := hS.admission hcases hnew
      cases answer with
      | error o => exact hadm
      | ok c =>
          dsimp only
          split
          · exact (hadm.note fun _ _ => Notice.noConfusion).unregister _ _
          · exact hadm

/-! ## Time -/

theorem Sound.wait (hS : h.Sound hs) (now : Nat) :
    Sound hs { h with registry := h.registry.setClock now } :=
  hS.registry _ hS.sessions_nodup hS.place

theorem Sound.sweep (hS : h.Sound hs) : Sound hs { h with registry := h.registry.sweep.1 } := by
  refine hS.registry _ (h.registry.nodup_sweep hS.sessions_nodup) ?_
  intro key
  rw [(registry_sweep_terms h.registry).1, place_sweep h hS.sessions_nodup]
  exact (hS.place key).expire

theorem Sound.look (hS : h.Sound hs) (id : SessionId) :
    Sound hs { h with registry := (h.registry.lookup id).1 } := by
  refine hS.registry _ ?_ ?_
  · unfold Registry.lookup
    split
    · exact hS.sessions_nodup
    · split
      · exact Table.nodup_erase hS.sessions_nodup id
      · exact hS.sessions_nodup
  · intro key
    rw [(registry_lookup_terms h.registry id).1, place_lookup]
    split
    · exact (hS.place key).expire
    · exact hS.place key

end Hub

/-! ## Every step, every run -/

open Hub in
/-- **The invariant, one step on.** -/
theorem Hub.Sound.act {past : List Occurrence} {h : Hub} (hS : h.Sound (handles past)) (a : Act)
    (hnew : a.newcomer past) (hfault : (h.act a).2.isFault = false) :
    (h.act a).1.Sound (handles (⟨a, (h.act a).2⟩ :: past)) := by
  cases a with
  | register g =>
      have hreg := hS.register hnew (Outcome.ne_fault hfault)
      have hhandles : handles (⟨.register g, .ofAnswer (h.register g).2⟩ :: past)
          = (h.register g).2.toOption.toList ++ handles past := by
        cases (h.register g).2 <;> rfl
      show (h.register g).1.Sound (handles (⟨.register g, .ofAnswer (h.register g).2⟩ :: past))
      rw [hhandles]
      exact hreg
  | release id client => exact hS.release id client
  | dispatch m => exact hS.dispatch m
  | reap => exact hS.reap
  | stop => exact hS.closeAll
  | read c => exact hS.read c
  | leave c => exact hS.leave c
  | wait span => exact hS.wait _
  | sweep => exact hS.sweep
  | look id => exact hS.look id
  | ask id claimant => exact hS

/-- **The invariant holds at every point of every run.** -/
theorem Run.sound {past : List Occurrence} {h : Hub} (hrun : Run past h) :
    h.Sound (handles past) := by
  induction hrun with
  | @start config registry b hempty hstart =>
      rw [Broker.start] at hstart
      split at hstart
      · cases hstart
      · obtain rfl := Except.ok.inj hstart
        refine ⟨List.nodup_nil, ?_, fun id => ⟨?_, ?_⟩, rfl, ?_, ?_, ?_, List.nodup_nil, ?_⟩
        · show (Table.ids registry.sessions).Nodup
          rw [hempty]
          exact List.nodup_nil
        · refine ⟨fun hsome => (Bool.false_ne_true hsome).elim, ?_⟩
          rintro ⟨s, hs, -⟩
          have hfind : Table.get? registry.sessions id = some s := hs
          rw [hempty] at hfind
          cases hfind
        · intro s hs
          have hfind : Table.get? registry.sessions id = some s := hs
          rw [hempty] at hfind
          cases hfind
        · intro id slot hslot
          cases hslot
        · intro c hc
          cases hc
        · intro x hx
          cases hx
        · intro id c hmem
          rcases List.mem_cons.mp hmem with heq | hmem
          · cases heq
          · cases hmem
  | step hrun a hnew hfault ih => exact ih.act a hnew hfault

end EventRelay
