import EventRelay.Proofs.Projection

/-!
# Admitting a connection

`Hub.accept` ends in one of three ways that leave the hub whole: the connection is
refused, it gets back the session it presents, or it gets a new one. `Hub.Admission`
lists them with all that is known in each case, guards included, and `accept_cases`
is the only place where the definition is opened.

A new client's queue holds its greeting and the whole replay: `Slot.offers_room`
shows that none of these offers is lost.
-/

namespace EventRelay

/-! ## Filling a new queue -/

namespace Slot

/-- The slot after `es` were taken into its queue. The last one taken sets the stall
clock. -/
def taking (s : Slot) (es : List Event) (now : Nat) : Slot where
  client := s.client
  channel := ⟨s.channel.capacity, s.channel.queue ++ es, s.channel.attended⟩
  stalledSince :=
    if es = [] then s.stalledSince
    else if s.channel.capacity ≤ s.channel.queue.length + es.length then some now else none

theorem taking_nil (s : Slot) (now : Nat) : s.taking [] now = s := by
  obtain ⟨client, ⟨capacity, queue, attended⟩, stalledSince⟩ := s
  simp only [taking, List.append_nil, if_true]

theorem offer_room {s : Slot} (ha : s.channel.attended = true)
    (hroom : s.channel.queue.length < s.channel.capacity) (e : Event) (patience now : Nat) :
    s.offer e patience now = (s.taking [e] now, .delivered) := by
  have hfull : s.channel.isFull = false := by
    rw [Channel.isFull, decide_eq_false_iff_not]
    omega
  unfold offer
  rw [if_neg (by rw [ha]; decide), if_neg (by rw [hfull]; decide)]
  simp only [taking, Channel.isFull, List.length_append, List.length_singleton, decide_eq_true_eq,
    List.cons_ne_nil, if_false]

theorem taking_cons (s : Slot) (e : Event) (es : List Event) (now : Nat) :
    (s.taking [e] now).taking es now = s.taking (e :: es) now := by
  by_cases hes : es = []
  · rw [hes, taking_nil]
  · simp only [taking, hes, List.append_assoc, List.singleton_append, List.length_append,
      List.length_cons, List.length_nil, List.cons_ne_nil, if_false, Nat.add_assoc, Nat.zero_add,
      Nat.add_comm 1]

/-- The slot after some events were offered one after another, and what became of each. -/
def offers (patience now : Nat) : List Event → Slot → Slot × List Delivery
  | [], s => (s, [])
  | e :: es, s =>
    let (s, d) := s.offer e patience now
    let (s, ds) := offers patience now es s
    (s, d :: ds)

theorem foldl_offer (patience now : Nat) (es : List Event) (s : Slot) :
    es.foldl (fun s e => (s.offer e patience now).1) s = (s.offers patience now es).1 := by
  induction es generalizing s with
  | nil => rfl
  | cons e es ih => exact ih (s.offer e patience now).1

/-- Events that all find room are all delivered, in order. -/
theorem offers_room (patience now : Nat) (es : List Event) (s : Slot)
    (ha : s.channel.attended = true)
    (hroom : s.channel.queue.length + es.length ≤ s.channel.capacity) :
    s.offers patience now es = (s.taking es now, List.replicate es.length .delivered) := by
  induction es generalizing s with
  | nil => rw [taking_nil]; rfl
  | cons e es ih =>
      rw [List.length_cons] at hroom
      have hlen : (s.taking [e] now).channel.queue.length = s.channel.queue.length + 1 :=
        List.length_append
      have hroom' : (s.taking [e] now).channel.queue.length + es.length ≤ s.channel.capacity := by
        rw [hlen]
        omega
      rw [offers, offer_room ha (by omega)]
      dsimp only
      rw [ih (s.taking [e] now) ha hroom', taking_cons]
      rfl

end Slot

namespace Hub

variable (h : Hub)

/-- The slot of a client that has just been admitted. -/
def opening (g : Registration) (id : SessionId) (reconnected : Bool) (replay : List Event) : Slot :=
  { client := g.client
    channel :=
      { capacity := h.config.queueCapacity + replay.length + 1
        queue := Event.connected g.greeting id reconnected replay.length :: replay }
    stalledSince := if h.config.queueCapacity = 0 then some h.now else none }

/-- The greeting and the replay are delivered one by one, and there is room for the rest. -/
theorem offers_opening (g : Registration) (id : SessionId) (reconnected : Bool)
    (replay : List Event) :
    Slot.offers h.config.patience h.now
        (Event.connected g.greeting id reconnected replay.length :: replay)
        { client := g.client,
          channel := { capacity := h.config.queueCapacity + replay.length + 1 } }
      = (h.opening g id reconnected replay, List.replicate (replay.length + 1) .delivered) := by
  rw [Slot.offers_room _ _ _ _ rfl (by
    show 0 + (replay.length + 1) ≤ h.config.queueCapacity + replay.length + 1
    omega)]
  have hstall : h.config.queueCapacity + replay.length + 1 ≤ 0 + (replay.length + 1)
      ↔ h.config.queueCapacity = 0 := by omega
  simp only [opening, Slot.taking, List.cons_ne_nil, if_false, List.nil_append, List.length_nil,
    List.length_cons, hstall]

/-- Only the journal was written. -/
structure Untouched (h h' : Hub) : Prop where
  sessions : h'.registry.sessions = h.registry.sessions
  clients : h'.clients = h.clients
  closed : h'.closed = h.closed
  count : h'.liveCount = h.liveCount
  terms : h'.terms = h.terms
  journal : h.Tidier h'

/-- A client was admitted to the session `s`, under an id that had no client. -/
structure Admitted (h : Hub) (g : Registration) (id : SessionId) (s : Session) (reconnected : Bool)
    (h' : Hub) : Prop where
  sessions : h'.registry.sessions = Table.put id s h.registry.sessions
  clients : h'.clients = Table.put id (h.opening g id reconnected s.replay) h.clients
  closed : h'.closed = h.closed
  count : h'.liveCount = h'.clients.length
  terms : h'.terms = h.terms
  journal : h.Tidier h'

theorem Untouched.place {h h' : Hub} (hu : h.Untouched h') (key : SessionId) :
    h'.place key = h.place key := by
  rw [Hub.place, Registry.find?, hu.sessions, hu.clients]
  rfl

theorem Admitted.place {h h' : Hub} {g : Registration} {id : SessionId} {s : Session}
    {reconnected : Bool} (hin : h.Admitted g id s reconnected h') (key : SessionId) :
    h'.place key = if key = id then ⟨some s, some (h.opening g id reconnected s.replay)⟩
      else h.place key := by
  rw [Hub.place, Registry.find?, hin.sessions, hin.clients, Table.get?_put, Table.get?_put]
  split <;> rfl

/-- The ways to admit or to refuse a connection. -/
inductive Admission (h : Hub) (g : Registration) : Hub × Except Obstacle Client → Prop
  | refused {h' : Hub} {r : Refusal} (hclaim : h.claim? g = none) (hout : h.Untouched h') :
      Admission h g (h', .error (.refusal r))
  | reclaimed {h' : Hub} {id : SessionId} {s : Session} (hclaim : h.claim? g = some id)
      (hs : h.registry.find? id = some s)
      (hin : h.Admitted g id (s.reclaim g.lastEventId h.now) true h') :
      Admission h g (h', .ok ⟨g.client, id, true, (s.reclaim g.lastEventId h.now).replay.length⟩)
  | created {h' : Hub} {id : SessionId} (hclaim : h.claim? g = none)
      (hs : h.registry.find? id = none)
      (hin : h.Admitted g id
        (Session.fresh h.registry.config.bufferCapacity g.metadata h.now) false h') :
      Admission h g (h', .ok ⟨g.client, id, false, 0⟩)

/-! ## Opening a connection -/

/-- Opening fails past a limit of the platform, or opens the connection. -/
theorem openClient_cases (g : Registration) {id : SessionId} (reconnects : Option Nat)
    (replay : List Event) (hfree : Table.get? h.clients id = none) :
    (∃ f, (h.openClient g id reconnects replay).2 = .error (.fault f)) ∨
    ∃ journal, h.Tidier { h with journal } ∧
      h.openClient g id reconnects replay
        = ({ h with
              clients := Table.put id (h.opening g id reconnects.isSome replay) h.clients
              liveCount := (Table.put id (h.opening g id reconnects.isSome replay) h.clients).length
              journal },
            .ok ⟨g.client, id, reconnects.isSome, replay.length⟩) := by
  unfold openClient
  dsimp only
  split
  · exact Or.inl ⟨_, rfl⟩
  split
  · exact Or.inl ⟨_, rfl⟩
  refine Or.inr ?_
  have hslot : (Event.connected g.greeting id reconnects.isSome replay.length :: replay).foldl
      (fun s e => (s.offer e h.config.patience h.now).1)
      ({ client := g.client, channel := { capacity := h.config.queueCapacity + replay.length + 1 } }
        : Slot) = h.opening g id reconnects.isSome replay := by
    rw [Slot.foldl_offer, h.offers_opening]
  rw [hslot, hfree]
  cases reconnects with
  | none =>
      refine ⟨.sessionRegistered id :: h.journal, ?_, rfl⟩
      intro key c hmem
      rcases List.mem_cons.mp hmem with heq | hmem
      · cases heq
      · exact hmem
  | some count =>
      refine ⟨.sessionReconnected id count replay.length :: h.journal, ?_, rfl⟩
      intro key c hmem
      rcases List.mem_cons.mp hmem with heq | hmem
      · cases heq
      · exact hmem

/-! ## Drawing a session id -/

/-- A session is created under an id that was not taken, or nothing happens to the
sessions. -/
theorem create_cases (m : Metadata) : ∀ (draws : List Draw) (r : Registry),
    (r.create m draws).1.config = r.config ∧ (r.create m draws).1.now = r.now ∧
    ((∃ o, (r.create m draws).2 = .error o ∧ (r.create m draws).1.sessions = r.sessions) ∨
      ∃ id, r.find? id = none ∧ (r.create m draws).2 = .ok id ∧
        (r.create m draws).1.sessions
          = Table.put id (Session.fresh r.config.bufferCapacity m r.now) r.sessions)
  | [], r => ⟨rfl, rfl, Or.inl ⟨_, rfl, rfl⟩⟩
  | .error reason :: _, r => ⟨rfl, rfl, Or.inl ⟨_, rfl, rfl⟩⟩
  | .ok id :: rest, r => by
      rw [Registry.create]
      split
      · exact create_cases m rest (r.note .sessionIdTaken)
      · next htaken =>
          split
          · exact ⟨rfl, rfl, Or.inl ⟨_, rfl, rfl⟩⟩
          · exact ⟨rfl, rfl, Or.inr ⟨id, Option.not_isSome_iff_eq_none.mp htaken, rfl, rfl⟩⟩

/-! ## Claiming a session -/

/-- A claim that is granted names a session that nobody holds and that has not
expired, and comes from the user agent that made the session if that matters. -/
theorem claim?_eq_some {g : Registration} {id : SessionId} (hclaim : h.claim? g = some id) :
    g.candidate = some id ∧ Table.get? h.clients id = none ∧
    ∃ s, h.registry.find? id = some s ∧ s.active = false ∧ h.registry.isExpired s = false ∧
      (h.registry.config.strictBinding = true → s.metadata.userAgent = g.metadata.userAgent) := by
  obtain ⟨hcand, hok⟩ := Option.filter_eq_some_iff.mp hclaim
  rw [Bool.and_eq_true, Bool.not_eq_true', Table.contains, Registry.claimable] at hok
  obtain ⟨hfree, hclaimable⟩ := hok
  refine ⟨hcand, Option.isSome_eq_false_iff.mp hfree |> Option.isNone_iff_eq_none.mp, ?_⟩
  cases hs : h.registry.find? id with
  | none => rw [hs] at hclaimable; cases hclaimable
  | some s =>
      rw [hs] at hclaimable
      simp only [Bool.and_eq_true, Bool.not_eq_true', Bool.or_eq_true, beq_iff_eq] at hclaimable
      obtain ⟨⟨hactive, hexpired⟩, hbinding⟩ := hclaimable
      exact ⟨s, rfl, hactive, hexpired, fun hstrict => hbinding.resolve_left (by simp [hstrict])⟩

/-- What is granted can be taken. -/
theorem reclaim_eq {id : SessionId} {s : Session} (r : Registry) (hs : r.find? id = some s)
    (hexpired : r.isExpired s = false) (last : Option EventId) :
    r.reclaim id last
      = (r.put id (s.reclaim last r.now),
        some (s.reclaim last r.now, (s.reclaim last r.now).replay)) := by
  have hlookup : r.lookup id = (r, some s) := by
    unfold Registry.lookup
    rw [hs]
    simp only [hexpired, Bool.false_eq_true, if_false]
  unfold Registry.reclaim
  rw [hlookup]

/-! ## The ways to be admitted -/

/-- Opening the connection of a session that was put into the registry. -/
theorem Admitted.of_open {g : Registration} {id : SessionId} (s : Session) (reconnects : Option Nat)
    (r : Registry) (hfree : Table.get? h.clients id = none)
    (hr : r.sessions = Table.put id s h.registry.sessions)
    (hconfig : r.config = h.registry.config) (hnow : r.now = h.registry.now)
    (hfault : ∀ f, (({ h with registry := r } : Hub).openClient g id reconnects s.replay).2
      ≠ .error (.fault f)) :
    ∃ h', ({ h with registry := r } : Hub).openClient g id reconnects s.replay
        = (h', .ok ⟨g.client, id, reconnects.isSome, s.replay.length⟩) ∧
      h.Admitted g id s reconnects.isSome h' := by
  rcases openClient_cases { h with registry := r } g reconnects s.replay hfree with
    ⟨f, hf⟩ | ⟨journal, hjournal, heq⟩
  · exact absurd hf (hfault f)
  · have hopening : ({ h with registry := r } : Hub).opening g id reconnects.isSome s.replay
        = h.opening g id reconnects.isSome s.replay := by
      unfold opening now
      rw [hnow]
    have hterms : ({ h with registry := r } : Hub).terms = h.terms := by
      unfold Hub.terms now
      rw [hconfig, hnow]
    exact ⟨_, heq, hr, by rw [← hopening], rfl, rfl, hterms, hjournal⟩

theorem accept_reclaimed {g : Registration} {id : SessionId} {s : Session}
    (hclaim : h.claim? g = some id) (hs : h.registry.find? id = some s) :
    h.accept g = ({ h with registry := h.registry.put id (s.reclaim g.lastEventId h.now) } :
        Hub).openClient g id (some (s.reclaim g.lastEventId h.now).reconnects.toNat)
      (s.reclaim g.lastEventId h.now).replay := by
  obtain ⟨-, -, s', hs', -, hexpired, -⟩ := h.claim?_eq_some hclaim
  obtain rfl := Option.some.inj (hs.symm.trans hs')
  unfold accept
  rw [hclaim]
  simp only [reclaim_eq h.registry hs hexpired]
  rfl

theorem accept_created {g : Registration} (hclaim : h.claim? g = none) :
    h.accept g = match h.registry.create g.metadata g.draws with
      | (registry, .error obstacle) => ({ h with registry }, .error obstacle)
      | (registry, .ok id) => ({ h with registry } : Hub).openClient g id none [] := by
  unfold accept
  rewrite [hclaim]
  rfl

/-- **The ways to be admitted.** Unless the request runs into a limit of the platform,
`Admission` says what becomes of it. -/
theorem accept_cases (g : Registration)
    (hfree : ∀ id, h.registry.find? id = none → Table.get? h.clients id = none)
    (hfault : ∀ f, (h.accept g).2 ≠ .error (.fault f)) : h.Admission g (h.accept g) := by
  cases hclaim : h.claim? g with
  | some id =>
      obtain ⟨-, hnone, s, hs, -⟩ := claim?_eq_some h hclaim
      rw [accept_reclaimed h hclaim hs] at hfault ⊢
      obtain ⟨h', heq, hin⟩ := Admitted.of_open h (s.reclaim g.lastEventId h.now)
        (some (s.reclaim g.lastEventId h.now).reconnects.toNat)
        (h.registry.put id (s.reclaim g.lastEventId h.now)) hnone rfl rfl rfl hfault
      rw [heq]
      exact .reclaimed hclaim hs hin
  | none =>
      obtain ⟨hconfig, hnow, hcreate⟩ := create_cases g.metadata g.draws h.registry
      cases hc : h.registry.create g.metadata g.draws with
      | mk r result =>
          simp only [hc] at hconfig hnow hcreate
          rw [accept_created h hclaim, hc] at hfault ⊢
          rcases hcreate with ⟨o, rfl, hsessions⟩ | ⟨id, hs, rfl, hsessions⟩
          · cases o with
            | fault f => exact absurd rfl (hfault f)
            | refusal reason =>
                have hterms : ({ h with registry := r } : Hub).terms = h.terms := by
                  unfold terms now
                  rw [hconfig, hnow]
                exact .refused hclaim ⟨hsessions, rfl, rfl, rfl, hterms, fun _ _ hmem => hmem⟩
          · obtain ⟨h', heq, hin⟩ := Admitted.of_open h
              (Session.fresh h.registry.config.bufferCapacity g.metadata h.registry.now) none r
              (hfree id hs) hsessions hconfig hnow hfault
            show h.Admission g (({ h with registry := r } : Hub).openClient g id none
              (Session.fresh h.registry.config.bufferCapacity g.metadata h.registry.now).replay)
            rw [heq]
            exact .created hclaim hs hin

/-- A registration is answered as its admission ended. -/
theorem register_answer (g : Registration) : (h.register g).2 = (h.accept g).2 := by
  unfold register
  cases h.accept g with
  | mk h' answer =>
      cases answer with
      | error o => rfl
      | ok c => cases g.abandoned <;> rfl

end Hub

end EventRelay
