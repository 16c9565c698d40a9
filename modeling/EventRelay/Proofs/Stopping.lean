import EventRelay.Proofs.Expiry
import EventRelay.Proofs.Serving

/-!
# What a stop leaves behind

A broker whose loop has ended does nothing any more: requests are refused or dropped, and
sessions go only by expiring (`Broker.Aftermath`). `Broker.StopsCleanly` says what a stop is to
make of a broker besides: everybody who was given a connection is told that it is over, nobody
is connected and no session held, the sessions are as they were, and whoever waits is refused.

A stop of a running loop is clean (`Broker.Accounted.rid`), and so is every further
one, unless the loop fails on its way to the stop (`Broker.stop_overflowing`). When it has failed
there is nobody left to close the connections, and a stop changes nothing (`Broker.stop_ended`);
it is clean if there was nothing to close. In the table of clients a turn that fails leaves
everything as it was (`Broker.turn_breaks`), so that this can be told from the number of live
clients and the sessions: `Broker.Reachable.stops_cleanly_iff`.
-/

namespace EventRelay

/-- The session when its connection, if it has one, ends. -/
def Session.cease (s : Session) (now : Nat) : Session := if s.active then s.disconnect now else s

theorem Session.cease_active (s : Session) (now : Nat) : (s.cease now).active = false := by
  unfold cease
  split
  · rfl
  · next hidle => exact Bool.not_eq_true _ ▸ hidle

/-- The end of a connection is the end of the session's if somebody holds it. -/
theorem Place.Held.session_vacate {p : Place} {t : Terms} (hheld : p.Held) :
    (p.vacate t).session = p.session.map (·.cease t.now) := by
  obtain ⟨session, slot⟩ := p
  cases session with
  | none => cases slot <;> rfl
  | some s =>
      have hactive : s.active = slot.isSome := hheld.active_eq rfl
      cases slot with
      | none => simp [Place.vacate, Session.cease, hactive]
      | some slot => simp [Place.vacate, Session.cease, hactive]

/-! ## After the end -/

namespace Registry

variable {r r' r'' : Registry} {t t' : Nat} {id : SessionId}

/-- What has expired stays so. -/
theorem Lapsed.later (hlapsed : (r.setClock t).Lapsed id) (htime : t ≤ t') :
    (r.setClock t').Lapsed id := by
  intro s hs
  obtain ⟨hidle, hlate⟩ := isExpired_iff.mp (hlapsed s hs)
  refine isExpired_iff.mpr ⟨hidle, ?_⟩
  simp only [setClock] at hlate ⊢
  omega

theorem Pruned.trans (hp : (r.setClock t).Pruned r') (hp' : (r'.setClock t').Pruned r'')
    (htime : t ≤ t') : (r.setClock t').Pruned r'' := by
  refine ⟨hp'.config.trans hp.config, hp'.now, hp.nodup, hp'.nodup', fun id => ?_⟩
  have hfind : r'.find? id = r.find? id ∨ r'.find? id = none ∧ (r.setClock t).Lapsed id :=
    hp.find id
  have hfind' : r''.find? id = r'.find? id ∨ r''.find? id = none ∧ (r'.setClock t').Lapsed id :=
    hp'.find id
  rcases hfind with hsame | ⟨hnone, hlapsed⟩
  · rcases hfind' with hsame' | ⟨hnone', hlapsed'⟩
    · exact Or.inl (hsame'.trans hsame)
    · refine Or.inr ⟨hnone', fun s hs => ?_⟩
      have hexpired : (r'.setClock t').isExpired s = true := hlapsed' s (hsame.trans hs)
      rwa [Registry.isExpired, show (r'.setClock t').config = (r.setClock t').config from hp.config]
        at hexpired
  · refine Or.inr ⟨?_, hlapsed.later htime⟩
    rcases hfind' with hsame' | ⟨hnone', -⟩
    · exact hsame'.trans hnone
    · exact hnone'

theorem nodup_hold (r : Registry) (id : SessionId) (hnd : (Table.ids r.sessions).Nodup) :
    (Table.ids (r.hold id).sessions).Nodup := by
  unfold hold
  split
  · exact hnd
  · exact Table.nodup_put hnd id _

/-- Some sessions that have expired were forgotten. -/
theorem Pruned.of_find (hconfig : r'.config = r.config) (hnow : r'.now = r.now)
    (hnd : (Table.ids r.sessions).Nodup) (hnd' : (Table.ids r'.sessions).Nodup)
    (hfind : ∀ id, r'.find? id = r.find? id ∨
      r'.find? id = (r.find? id).filter fun s => !r.isExpired s) : r.Pruned r' := by
  refine ⟨hconfig, hnow, hnd, hnd', fun id => ?_⟩
  rcases hfind id with hsame | hfilter
  · exact Or.inl hsame
  rw [hfilter]
  cases hs : r.find? id with
  | none => exact Or.inl rfl
  | some s =>
      cases hexpired : r.isExpired s with
      | false => exact Or.inl (by simp [hexpired])
      | true =>
          refine Or.inr ⟨by simp [hexpired], fun s' hs' => ?_⟩
          exact Option.some.inj (hs.symm.trans hs') ▸ hexpired

end Registry

namespace Hub

variable {h h' h'' : Hub}

/-- Nothing has happened but that time passed and sessions expired. -/
structure Fades (h h' : Hub) : Prop where
  closed : h'.closed = h.closed
  count : h'.liveCount = h.liveCount
  clients : h.clients = [] → h'.clients = []
  now : h.now ≤ h'.now
  registry : (h.registry.setClock h'.now).Pruned h'.registry

theorem Fades.refl (hnd : (Table.ids h.registry.sessions).Nodup) : h.Fades h :=
  ⟨rfl, rfl, id, Nat.le_refl _, .refl hnd⟩

theorem Fades.trans (hfades : h.Fades h') (hfades' : h'.Fades h'') : h.Fades h'' where
  closed := hfades'.closed.trans hfades.closed
  count := hfades'.count.trans hfades.count
  clients hempty := hfades'.clients (hfades.clients hempty)
  now := hfades.now.trans hfades'.now
  registry := hfades.registry.trans hfades'.registry hfades'.now

theorem Untouched.fades (hu : h.Untouched h') (hnd : (Table.ids h.registry.sessions).Nodup) :
    h.Fades h' := by
  have hnow : h'.now = h.now := congrArg Terms.now hu.terms
  have hconfig : h'.registry.config = h.registry.config := congrArg Terms.sessions hu.terms
  refine ⟨hu.closed, hu.count, hu.clients.trans, Nat.le_of_eq hnow.symm, ?_⟩
  refine .of_find hconfig rfl hnd (hu.sessions ▸ hnd) fun id => Or.inl ?_
  rw [Registry.find?, hu.sessions]
  rfl

/-- Something becomes of a slot, and so somebody is connected. -/
theorem fades_of_slot (hnd : (Table.ids h.registry.sessions).Nodup) {c : Client} {slot : Slot}
    (hslot : h.slot? c = some slot) (clients : Table Slot) : h.Fades { h with clients } := by
  refine ⟨rfl, rfl, fun hempty => ?_, Nat.le_refl _, .refl hnd⟩
  rw [slot?, hempty] at hslot
  cases hslot

theorem fades_read (hnd : (Table.ids h.registry.sessions).Nodup) (c : Client) :
    h.Fades (h.read c).1 := by
  unfold Hub.read
  split
  · exact .refl hnd
  · next hslot =>
      split
      · exact .refl hnd
      · exact fades_of_slot hnd hslot _

theorem fades_leave (hnd : (Table.ids h.registry.sessions).Nodup) (c : Client) :
    h.Fades (h.leave c) := by
  unfold Hub.leave
  split
  · exact .refl hnd
  · next hslot => exact fades_of_slot hnd hslot _

theorem fades_registry {r : Registry} (hp : h.registry.Pruned r) :
    h.Fades { h with registry := r } := by
  have hnow : r.now = h.registry.now := hp.now
  refine ⟨rfl, rfl, id, Nat.le_of_eq hnow.symm, ?_⟩
  show (h.registry.setClock r.now).Pruned r
  rw [hnow]
  exact hp

end Hub

namespace Broker

variable {b b' b'' b₀ : Broker} {o : Option Act} {past : List Moment}

/-- What may come of a broker whose loop has ended. -/
structure Aftermath (b b' : Broker) : Prop where
  phase : b'.phase = b.phase
  awaited : b.awaited = true → b'.awaited = true
  answers : b'.answers = b.answers
  pending : b.pending = [] → b'.pending = []
  hub : b.hub.Fades b'.hub

theorem Aftermath.refl (hnd : (Table.ids b.registry.sessions).Nodup) : b.Aftermath b :=
  ⟨rfl, id, rfl, id, .refl hnd⟩

theorem Aftermath.trans (hafter : b.Aftermath b') (hafter' : b'.Aftermath b'') :
    b.Aftermath b'' where
  phase := hafter'.phase.trans hafter.phase
  awaited hawaited := hafter'.awaited (hafter.awaited hawaited)
  answers := hafter'.answers.trans hafter.answers
  pending hnobody := hafter'.pending (hafter.pending hnobody)
  hub := hafter.hub.trans hafter'.hub

theorem Move.aftermath (hmove : b.Move o b') (hphase : b.isRunning = false)
    (hnd : (Table.ids b.registry.sessions).Nodup) : b.Aftermath b' := by
  have hquiet : ∀ {h : Hub}, b.hub.Untouched h → b.hub.Fades h := fun hu => hu.fades hnd
  have hfiltered : ∀ {r : Registry}, r.config = b.registry.config → r.now = b.registry.now →
      (Table.ids r.sessions).Nodup →
      (∀ id, r.find? id = b.registry.find? id ∨
        r.find? id = (b.registry.find? id).filter fun s => !b.registry.isExpired s) →
      b.hub.Fades { b.hub with registry := r } :=
    fun hconfig hnow hnd' hfind => Hub.fades_registry (.of_find hconfig hnow hnd hnd' hfind)
  cases hmove with
  | asked arrival draws =>
      have hasked := b.register_cases arrival draws
      generalize b.register arrival draws = result at hasked ⊢
      cases hasked with
      | refused hu => exact ⟨rfl, id, rfl, id, hquiet hu⟩
      | queued hu hregistry hruns => cases hruns.symm.trans hphase
  | abandoned ticket =>
      refine ⟨rfl, id, rfl, fun hnobody => ?_, .refl hnd⟩
      obtain ⟨hqueue, hlobby⟩ := List.append_eq_nil_iff.mp hnobody
      simp [abandon, Broker.pending, hqueue, hlobby]
  | releasing r =>
      obtain ⟨h, releases, hu, -, heq⟩ := b.requestRelease_eq r
      rw [heq]
      exact ⟨rfl, id, rfl, id, hquiet hu⟩
  | sent m =>
      obtain ⟨h, intake, hu, -, heq⟩ := b.send_eq m
      rw [heq]
      exact ⟨rfl, id, rfl, id, hquiet hu⟩
  | numbered => exact ⟨rfl, id, rfl, id, .refl hnd⟩
  | reported hu => exact ⟨rfl, id, rfl, id, hquiet hu⟩
  | looked key =>
      refine ⟨rfl, id, rfl, id, hfiltered ?_ ?_ ?_ fun id => ?_⟩
      · exact (Hub.registry_lookup_terms b.registry key).1
      · exact (Hub.registry_lookup_terms b.registry key).2
      · exact Registry.nodup_call hnd (.look key)
      · rw [Registry.find?_lookup]
        split
        · exact Or.inr rfl
        · exact Or.inl rfl
  | read c =>
      obtain ⟨h, rfl | rfl, heq⟩ := b.read_eq c
      · rw [heq]
        exact ⟨rfl, id, rfl, id, .refl hnd⟩
      · rw [heq]
        exact ⟨rfl, id, rfl, id, Hub.fades_read hnd c⟩
  | left c => exact ⟨rfl, id, rfl, id, Hub.fades_leave hnd c⟩
  | turned hbusy => cases hbusy.symm.trans (isIdle_of_not_running hphase)
  | letIn => exact ⟨rfl, id, rfl, fun hnobody => b.letIn_pending.trans hnobody, .refl hnd⟩
  | set => exact ⟨rfl, id, rfl, id, .refl hnd⟩
  | beat =>
      obtain ⟨h, intake, hu, -, heq⟩ := b.runHeartbeat_eq
      rw [heq]
      exact ⟨rfl, id, rfl, id, hquiet hu⟩
  | swept hticker hdue =>
      rw [runSweeper_eq hticker hdue]
      refine ⟨rfl, id, rfl, id, hfiltered ?_ ?_ ?_ fun id => Or.inr ?_⟩
      · exact (Hub.registry_sweep_terms b.registry).1
      · exact (Hub.registry_sweep_terms b.registry).2
      · exact Registry.nodup_call hnd .sweep
      · exact b.registry.find?_sweep hnd id
  | stopped hruns => cases hruns.symm.trans hphase
  | joined =>
      obtain ⟨h, hu, -, heq⟩ := b.joinTasks_eq
      rw [heq]
      exact ⟨rfl, fun _ => rfl, rfl, id, hquiet hu⟩
  | waited hrest hnow => exact ⟨rfl, id, rfl, id, rfl, rfl, id, hnow, .refl hnd⟩

/-- **The end is for good.** Whatever happens after it, nobody is answered and no session made
or changed. -/
theorem Reachable.aftermath (hreach : b.Reachable b') (hphase : b.isRunning = false)
    (hnd : (Table.ids b.registry.sessions).Nodup) : b.Aftermath b' := by
  induction hreach with
  | refl => exact .refl hnd
  | moved hreach hmove ih =>
      exact ih.trans (hmove.aftermath (by rwa [isRunning, ih.phase]) ih.hub.registry.nodup')
  | turned hreach hbusy ih =>
      cases hbusy.symm.trans (isIdle_of_not_running (by rwa [isRunning, ih.phase]))
  | passed hreach hnow ih =>
      exact ih.trans ⟨rfl, id, rfl, id, rfl, rfl, id, hnow, .refl ih.hub.registry.nodup'⟩

/-! ## How a loop ends -/

theorem Turn.awaited {a : Act} (hturn : b.Turn a b') : b'.awaited = b.awaited := by
  cases hturn <;> rfl

/-- A loop that runs goes on unless it is stopped. -/
theorem Move.goes_on (hmove : b.Move o b') (hruns : b.phase = .running)
    (hfirst : b.awaited = false) :
    (b.hub.deadlineOverflows = false ∧ b' = b.stop) ∨
      b'.phase = .running ∧ b'.awaited = false := by
  rcases hmove.drives with ⟨hphase, -, hawaited⟩ | ⟨a, -, -, hturn, rfl⟩ | ⟨-, -, hclock, rfl⟩
  · exact Or.inr ⟨hphase.trans hruns, (hawaited (isRunning_iff.mpr hruns)).trans hfirst⟩
  · exact Or.inr ⟨hturn.phase.trans hruns, hturn.awaited.trans hfirst⟩
  · exact Or.inl ⟨hclock, rfl⟩

/-- The loop runs, or was stopped while it ran, or has failed in a turn. -/
inductive Stage (b₀ b : Broker) : Prop
  | running (hruns : b.phase = .running) (hfirst : b.awaited = false)
  | stopped {b₁ : Broker} (hbefore : b₀.Reachable b₁) (hruns : b₁.phase = .running)
      (hfirst : b₁.awaited = false) (hclock : b₁.hub.deadlineOverflows = false)
      (hsince : b₁.stop.Reachable b)
  | failed {b₁ : Broker} {f : Fault} (hbefore : b₀.Reachable b₁) (hruns : b₁.phase = .running)
      (hfault : b₁.turn.phase = .failed f) (hsince : b₁.turn.Reachable b)

theorem Reachable.stage (hnew : b₀.New) (hreach : b₀.Reachable b) : Stage b₀ b := by
  induction hreach with
  | refl =>
      rw [hnew.initial]
      exact .running rfl rfl
  | moved hreach hmove ih =>
      cases ih with
      | running hruns hfirst =>
          rcases hmove.goes_on hruns hfirst with ⟨hclock, rfl⟩ | ⟨hruns', hfirst'⟩
          · exact .stopped hreach hruns hfirst hclock .refl
          · exact .running hruns' hfirst'
      | stopped hbefore hruns hfirst hclock hsince =>
          exact .stopped hbefore hruns hfirst hclock (hsince.moved hmove)
      | failed hbefore hruns hfault hsince =>
          exact .failed hbefore hruns hfault (hsince.moved hmove)
  | @turned b hreach hbusy ih =>
      cases ih with
      | running hruns hfirst =>
          rcases b.turn_cases with ⟨⟨f, hfault⟩, -⟩ | ⟨a, hturn⟩
          · exact .failed hreach hruns hfault .refl
          · exact .running (hturn.phase.trans hruns) (hturn.awaited.trans hfirst)
      | stopped hbefore hruns hfirst hclock hsince =>
          exact .stopped hbefore hruns hfirst hclock (hsince.turned hbusy)
      | failed hbefore hruns hfault hsince =>
          exact .failed hbefore hruns hfault (hsince.turned hbusy)
  | passed hreach hnow ih =>
      cases ih with
      | running hruns hfirst => exact .running hruns hfirst
      | stopped hbefore hruns hfirst hclock hsince =>
          exact .stopped hbefore hruns hfirst hclock (hsince.passed hnow)
      | failed hbefore hruns hfault hsince =>
          exact .failed hbefore hruns hfault (hsince.passed hnow)

end Broker

/-! ## A turn that fails -/

namespace Hub

variable {h : Hub} {g : Registration} {f : Fault}

theorem openClient_fault {id : SessionId} {reconnects : Option Nat} {replay : List Event}
    (hfault : (h.openClient g id reconnects replay).2 = .error (.fault f)) :
    (h.openClient g id reconnects replay).1 = h := by
  unfold openClient at hfault ⊢
  dsimp only at hfault ⊢
  split at hfault
  · next hlarge => rw [if_pos hlarge]
  · next hword =>
      rw [if_neg hword]
      split at hfault
      · next hlarge => rw [if_pos hlarge]
      · cases hfault

/-- A registration that goes past a limit leaves the clients alone. -/
theorem register_fault (hfault : (h.register g).2 = .error (.fault f)) :
    ∃ r, (h.register g).1 = { h with registry := r } ∧
      ((Table.ids h.registry.sessions).Nodup → (Table.ids r.sessions).Nodup) := by
  have hregister : (h.register g).1 = (h.accept g).1 := by
    rw [register_answer] at hfault
    unfold register
    split
    · next heq => rw [heq]
    · next heq => cases hfault.symm.trans (congrArg Prod.snd heq)
  rw [register_answer] at hfault
  rw [hregister]
  cases hclaim : h.claim? g with
  | some id =>
      obtain ⟨-, -, s, hs, -⟩ := h.claim?_eq_some hclaim
      rw [h.accept_reclaimed hclaim hs] at hfault ⊢
      exact ⟨_, openClient_fault hfault, fun hnd => Table.nodup_put hnd _ _⟩
  | none =>
      have hnd : (Table.ids h.registry.sessions).Nodup →
          (Table.ids (h.registry.create g.metadata g.draws).1.sessions).Nodup :=
        fun hnd => Registry.nodup_call hnd (.create g.metadata g.draws)
      rw [h.accept_created hclaim] at hfault ⊢
      split at hfault
      · next r obstacle heq =>
          rw [heq] at hnd
          exact ⟨r, rfl, hnd⟩
      · next r id heq =>
          rw [heq] at hnd
          exact ⟨r, openClient_fault hfault, hnd⟩

end Hub

namespace Broker

variable {b b' b'' b₀ : Broker} {past : List Moment}

/-- The loop has failed. The clients were left alone, nobody was admitted, and nobody waits. -/
structure Breaks (b b' : Broker) : Prop where
  hub : ∃ r, b'.hub = { b.hub with registry := r } ∧
    ((Table.ids b.registry.sessions).Nodup → (Table.ids r.sessions).Nodup)
  pending : b'.pending = []
  handed : ∀ n c, (n, .ok c) ∈ b'.answers → (n, .ok c) ∈ b.answers

/-- Nobody is given a connection when the loop ends. -/
theorem handed_failAnswering {n n' : Ticket} {c : Client} {f : Fault}
    (hmem : (n, .ok c) ∈ (b.failAnswering n' f).answers) : (n, .ok c) ∈ b.answers := by
  rcases List.mem_cons.mp (handed_discardQueues hmem) with heq | hmem
  · cases heq
  · exact hmem

/-- A turn that fails does nothing else. -/
theorem turn_breaks {f : Fault} (hruns : b.phase = .running) (hfault : b.turn.phase = .failed f) :
    b.Breaks b.turn := by
  have hfails := turn_fails hruns hfault
  generalize b.turn = b' at hfails
  cases hfails with
  | late => exact ⟨⟨b.registry, rfl, id⟩, rfl, fun n c => handed_discardQueues⟩
  | counting =>
      exact ⟨⟨_, rfl, b.registry.nodup_hold _⟩, rfl,
        fun n c => handed_failAnswering (f := .countOverflow)⟩
  | admitting _ _ _ _ hfault =>
      obtain ⟨r, hhub, hnd⟩ := Hub.register_fault hfault
      exact ⟨⟨r, hhub, hnd⟩, rfl, fun n c => handed_failAnswering (f := f)⟩

/-! ## A clean stop -/

/-- Nobody can change anything about the broker. -/
structure Inert (b : Broker) : Prop where
  register : ∀ arrival draws, (b.register arrival draws).1.clearJournal = b.clearJournal ∧
    (b.register arrival draws).2
      = .error (if arrival.streaming then .shutDown else .streamingUnsupported)
  release : ∀ r, (b.requestRelease r).clearJournal = b.clearJournal
  send : ∀ m, (b.send m).clearJournal = b.clearJournal
  /-- The event gets an id that it has no use for. -/
  sendNew : ∀ type payload scope,
    (b.sendNew type payload scope).clearJournal = b.freshSerial.1.clearJournal
  stop : b.stop = b

/-- The broker `b'` has done with everybody whom `b` had to do with. -/
structure Parted (b b' : Broker) : Prop where
  clients : ∀ n c, (n, .ok c) ∈ b.answers → b'.isClosed c = true ∧ (b'.read c).2 = .closed
  count : b'.stats.liveClients = 0
  idle : ∀ id s, b'.registry.find? id = some s → s.active = false
  answers : b'.answers = b.pending.map (fun e => (e.1, .error .shutDown)) ++ b.answers
  inert : b'.Inert

/-- A stop parts with everybody for good. It leaves the sessions as they are, but for those that
were held, whose retention starts; later they go by expiring only. -/
structure StopsCleanly (b : Broker) : Prop where
  sessions : ∀ id, b.stop.registry.find? id = (b.registry.find? id).map (·.cease b.now)
  parted : ∀ b', b.stop.Reachable b' → b.Parted b'
  lasts : ∀ b', b.stop.Reachable b' → (b.stop.registry.setClock b'.now).Pruned b'.registry

/-- Whoever asks for a connection after the end is refused. -/
theorem register_ended (hphase : b.isRunning = false) (arrival : Arrival) (draws : List Draw) :
    ∃ b', b'.clearJournal = b.clearJournal ∧ b.register arrival draws
      = (b', .error (if arrival.streaming then .shutDown else .streamingUnsupported)) := by
  have hnoted : ∀ n, (b.note n).isRunning = false := fun _ => hphase
  unfold Broker.register
  split
  · next hno => exact ⟨b.note .cannotStream, rfl, by simp_all⟩
  next hstreams =>
  rw [Bool.not_eq_true, Bool.not_eq_false'] at hstreams
  rw [hstreams, if_pos rfl]
  cases arrival.session with
  | none => exact ⟨b, rfl, by simp [hphase]⟩
  | some id =>
      dsimp only
      split
      · exact ⟨b, rfl, by simp [hphase]⟩
      · exact ⟨b.note (.notReclaimable id), rfl, by simp [hnoted]⟩

theorem inert_of_ended (hphase : b.isRunning = false) (hawaited : b.awaited = true) : b.Inert where
  register arrival draws := by
    obtain ⟨b', hsame, heq⟩ := register_ended hphase arrival draws
    rw [heq]
    exact ⟨hsame, rfl⟩
  release r := by
    rw [requestRelease, hphase]
    rfl
  send m := by
    rw [Broker.send, hphase]
    rfl
  sendNew type payload scope := by
    have hphase' : b.freshSerial.1.isRunning = false := hphase
    show (b.freshSerial.1.send _).clearJournal = _
    rw [Broker.send, hphase']
    rfl
  stop := by
    rw [Broker.stop, if_pos hawaited]

/-- The loop has ended, and the broker `b'` is rid of everybody whom `b` had to do with. -/
structure Rid (b b' : Broker) : Prop where
  phase : b'.isRunning = false
  awaited : b'.awaited = true
  clients : b'.hub.clients = []
  count : b'.hub.liveCount = 0
  told : ∀ n c, (n, .ok c) ∈ b.answers → c.id ∈ b'.hub.closed
  answers : b'.answers = b.pending.map (fun e => (e.1, .error .shutDown)) ++ b.answers
  pending : b'.pending = []
  nodup : (Table.ids b'.registry.sessions).Nodup

theorem Rid.after (hrid : b.Rid b') (hafter : b'.Aftermath b'') : b.Rid b'' where
  phase := by
    rw [isRunning, hafter.phase]
    exact hrid.phase
  awaited := hafter.awaited hrid.awaited
  clients := hafter.hub.clients hrid.clients
  count := hafter.hub.count.trans hrid.count
  told n c hmem := hafter.hub.closed ▸ hrid.told n c hmem
  answers := hafter.answers.trans hrid.answers
  pending := hafter.pending hrid.pending
  nodup := hafter.hub.registry.nodup'

/-- Nobody was given a connection since. -/
theorem Rid.handed (hrid : b.Rid b') {n : Ticket} {c : Client} (hmem : (n, .ok c) ∈ b'.answers) :
    (n, .ok c) ∈ b.answers := by
  rw [hrid.answers] at hmem
  exact handed_discardQueues hmem

theorem Rid.read (hrid : b.Rid b') (c : Client) : (b'.read c).2 = .closed := by
  have hslot : b'.hub.slot? c = none := by
    rw [Hub.slot?, hrid.clients]
    rfl
  unfold Broker.read
  split
  · rfl
  · show (b'.hub.read c).2 = .closed
    rw [Hub.read, hslot]

theorem Rid.parted (hrid : b.Rid b')
    (hidle : ∀ id s, b'.registry.find? id = some s → s.active = false) :
    b.Parted b' where
  clients n c hmem := ⟨List.contains_iff_mem.mpr (hrid.told n c hmem), hrid.read c⟩
  count := hrid.count
  idle := hidle
  answers := hrid.answers
  inert := inert_of_ended hrid.phase hrid.awaited

/-- What a clean stop has done lasts. -/
theorem Rid.stops_cleanly (hrid : b.Rid b.stop)
    (hsessions : ∀ id, b.stop.registry.find? id = (b.registry.find? id).map (·.cease b.now)) :
    b.StopsCleanly where
  sessions := hsessions
  lasts b' hreach := (hreach.aftermath hrid.phase hrid.nodup).hub.registry
  parted b' hreach := by
    have hafter := hreach.aftermath hrid.phase hrid.nodup
    refine (hrid.after hafter).parted fun id s hs => ?_
    have hfind : b'.registry.find? id = b.stop.registry.find? id ∨ b'.registry.find? id = none ∧
        (b.stop.registry.setClock b'.now).Lapsed id := hafter.hub.registry.find id
    rcases hfind with hsame | ⟨hnone, -⟩
    · rw [hsame, hsessions] at hs
      obtain ⟨s₀, -, rfl⟩ := Option.map_eq_some_iff.mp hs
      exact s₀.cease_active b.now
    · cases hnone.symm.trans hs

/-! ### Of a loop that runs -/

theorem Accounted.rid (hacc : Accounted past b₀ b)
    (hold : ∀ n c, (n, .ok c) ∈ b.answers → c ∈ handles (past.map Moment.occurrence))
    (hruns : b.isRunning = true) (hfirst : b.awaited = false)
    (hclock : b.hub.deadlineOverflows = false) : b.Rid b.stop ∧
      ∀ id, b.stop.registry.find? id = (b.registry.find? id).map (·.cease b.now) := by
  obtain ⟨h, hu, hregistry, heq⟩ := stop_eq hruns hfirst hclock
  have hS := hacc.trail.sound.closeAll
  rw [heq]
  constructor
  · refine ⟨rfl, rfl, hu.clients, hu.count, fun n c hmem => ?_, rfl, rfl,
      hu.sessions ▸ hS.sessions_nodup⟩
    show c.id ∈ h.closed
    rw [hu.closed, hS.closed_iff c (hold n c hmem)]
    rintro ⟨slot, hslot, -⟩
    cases hslot
  · intro id
    have hplace : (b.hub.closeAll.place id).session
        = (b.registry.find? id).map (·.cease b.now) := by
      rw [b.hub.place_closeAll, (hacc.trail.sound.place id).held.session_vacate]
      rfl
    show h.registry.find? id = _
    rw [hregistry]
    exact hplace

/-! ### Of a loop that has ended -/

/-- To stop a loop that has ended is to report that it has. -/
theorem stop_ended (hphase : b.isRunning = false) : ∃ h, b.hub.Untouched h ∧
    h.registry = b.registry ∧ b.stop = { b with hub := h, awaited := true } := by
  unfold Broker.stop
  split
  · next hawaited => exact ⟨b.hub, .refl _, rfl, by rw [← hawaited]⟩
  · rw [hphase, if_neg Bool.false_ne_true]
    exact b.joinTasks_eq

/-- A stop of a loop that has ended is clean if nothing is left to close. -/
theorem stops_cleanly_ended (hphase : b.isRunning = false) (hclients : b.hub.clients = [])
    (hcount : b.hub.liveCount = 0) (htold : ∀ n c, (n, .ok c) ∈ b.answers → c.id ∈ b.hub.closed)
    (hnobody : b.pending = []) (hnd : (Table.ids b.registry.sessions).Nodup)
    (hidle : ∀ id s, b.registry.find? id = some s → s.active = false) : b.StopsCleanly := by
  obtain ⟨h, hu, hregistry, heq⟩ := stop_ended hphase
  have hrid : b.Rid b.stop := by
    rw [heq]
    refine ⟨hphase, rfl, hu.clients.trans hclients, hu.count.trans hcount, fun n c hmem => ?_, ?_,
      hnobody, hu.sessions ▸ hnd⟩
    · exact hu.closed ▸ htold n c hmem
    · rw [hnobody]
      rfl
  refine hrid.stops_cleanly fun id => ?_
  rw [heq]
  show h.registry.find? id = _
  rw [hregistry]
  cases hs : b.registry.find? id with
  | none => rfl
  | some s => simp [Session.cease, hidle id s hs]

/-! ### Of any loop -/

/-- Nobody is connected, and no session is held. -/
def Vacant (b : Broker) : Prop :=
  b.stats.liveClients = 0 ∧ ∀ id s, b.registry.find? id = some s → s.active = false

theorem Reachable.rid (hnew : b₀.New) (hreach : b₀.Reachable b) (hruns : b.phase = .running)
    (hfirst : b.awaited = false) (hclock : b.hub.deadlineOverflows = false) : b.Rid b.stop ∧
      ∀ id, b.stop.registry.find? id = (b.registry.find? id).map (·.cease b.now) := by
  obtain ⟨past, hacc, hold⟩ := hreach.handed hnew (goes_of_running hruns)
  exact hacc.rid hold (isRunning_iff.mpr hruns) hfirst hclock

/-- A loop that cannot name a deadline fails when it is told to stop, as it does in any turn. -/
theorem stop_overflowing (hruns : b.isRunning = true) (hfirst : b.awaited = false)
    (hclock : b.hub.deadlineOverflows = true) : b.stop = b.turn.stop := by
  have hturn : b.turn = b.fail .deadlineOverflow := if_pos hclock
  have hshut : b.shutLoop = b.fail .deadlineOverflow := if_pos hclock
  have hfirst' : (b.fail .deadlineOverflow).awaited = false := hfirst
  have hended : (b.fail .deadlineOverflow).isRunning = false := rfl
  rw [hturn, stop, stop, hfirst, hruns, hshut, hfirst', hended]
  rfl

/-- If nobody is connected the clock has no deadline to name. -/
theorem Reachable.clock_of_count (hnew : b₀.New) (hreach : b₀.Reachable b)
    (hruns : b.phase = .running) (hcount : b.hub.liveCount = 0) :
    b.hub.deadlineOverflows = false := by
  obtain ⟨past, hacc⟩ := hreach.accounted hnew (goes_of_running hruns)
  have hempty : b.hub.clients = [] := by
    rw [← List.length_eq_zero_iff, ← hacc.trail.sound.count]
    exact hcount
  rw [Hub.deadlineOverflows, hempty]
  rfl

/-- If nobody is left when the loop fails, everybody was told that the connection is over. -/
theorem Reachable.told_failed {f : Fault} (hnew : b₀.New) (hreach : b₀.Reachable b)
    (hruns : b.phase = .running) (hfault : b.turn.phase = .failed f)
    (hcount : b.turn.hub.liveCount = 0) : b.turn.hub.clients = [] ∧
      ∀ n c, (n, .ok c) ∈ b.turn.answers → c.id ∈ b.turn.hub.closed := by
  obtain ⟨past, hacc, hold⟩ := hreach.handed hnew (goes_of_running hruns)
  have hS := hacc.trail.sound
  obtain ⟨⟨r, hhub, -⟩, -, hanswers⟩ := turn_breaks hruns hfault
  rw [hhub] at hcount ⊢
  have hempty : b.hub.clients = [] := by
    rw [← List.length_eq_zero_iff, ← hS.count]
    exact hcount
  refine ⟨hempty, fun n c hmem => ?_⟩
  show c.id ∈ b.hub.closed
  rw [hS.closed_iff c (hold n c (hanswers n c hmem))]
  rintro ⟨slot, hslot, -⟩
  rw [hempty] at hslot
  cases hslot

/-- After a turn that failed only what comes after the end happens. -/
theorem Reachable.aftermath_turn {f : Fault} (hnew : b₀.New) (hreach : b₀.Reachable b)
    (hruns : b.phase = .running) (hfault : b.turn.phase = .failed f)
    (hsince : b.turn.Reachable b') : b.turn.Aftermath b' := by
  obtain ⟨past, hacc⟩ := hreach.accounted hnew (goes_of_running hruns)
  obtain ⟨r, hhub, hnd⟩ := (turn_breaks hruns hfault).hub
  refine hsince.aftermath (isRunning_of_failed hfault) ?_
  rw [registry, hhub]
  exact hnd hacc.trail.sound.sessions_nodup

theorem Reachable.stops_cleanly (hnew : b₀.New) (hreach : b₀.Reachable b)
    (hends : (b.Goes ∧ (b.isRunning = true → b.hub.deadlineOverflows = false)) ∨ b.Vacant) :
    b.StopsCleanly := by
  cases hreach.stage hnew with
  | running hruns hfirst =>
      have hclock : b.hub.deadlineOverflows = false := hends.elim
        (fun hgoes => hgoes.2 (isRunning_iff.mpr hruns))
        fun hvacant => hreach.clock_of_count hnew hruns hvacant.1
      obtain ⟨hrid, hsessions⟩ := hreach.rid hnew hruns hfirst hclock
      exact hrid.stops_cleanly hsessions
  | stopped hbefore hruns hfirst hclock hsince =>
      obtain ⟨hrid, hsessions⟩ := hbefore.rid hnew hruns hfirst hclock
      have hrid' := hrid.after (hsince.aftermath hrid.phase hrid.nodup)
      refine stops_cleanly_ended hrid'.phase hrid'.clients hrid'.count ?_ hrid'.pending hrid'.nodup
        ((hrid.stops_cleanly hsessions).parted b hsince).idle
      exact fun n c hmem => hrid'.told n c (hrid'.handed hmem)
  | @failed b₁ f hbefore hruns hfault hsince =>
      have hafter := hbefore.aftermath_turn hnew hruns hfault hsince
      have hnobody := (turn_breaks hruns hfault).pending
      have hphase : b.phase = .failed f := hafter.phase.trans hfault
      obtain ⟨hcount, hidle⟩ := hends.resolve_left fun hgoes => hgoes.1 f hphase
      have hcount' : b₁.turn.hub.liveCount = 0 := hafter.hub.count.symm.trans hcount
      obtain ⟨hclients, htold⟩ := hbefore.told_failed hnew hruns hfault hcount'
      refine stops_cleanly_ended (isRunning_of_failed hphase)
        (hafter.hub.clients hclients) hcount ?_
        (hafter.pending hnobody) hafter.hub.registry.nodup' hidle
      intro n c hmem
      rw [hafter.hub.closed]
      exact htold n c (hafter.answers ▸ hmem)

/-- A loop that runs was never told to stop. -/
theorem Reachable.unstopped (hnew : b₀.New) (hreach : b₀.Reachable b)
    (hruns : b.isRunning = true) : b.awaited = false := by
  cases hreach.stage hnew with
  | running _ hfirst => exact hfirst
  | stopped hbefore hruns' hfirst hclock hsince =>
      obtain ⟨hrid, -⟩ := hbefore.rid hnew hruns' hfirst hclock
      have hended := (hrid.after (hsince.aftermath hrid.phase hrid.nodup)).phase
      cases hruns.symm.trans hended
  | failed hbefore hruns' hfault hsince =>
      have hended := (hbefore.aftermath_turn hnew hruns' hfault hsince).phase.trans hfault
      cases hended.symm.trans (isRunning_iff.mp hruns)

/-- **When a stop is clean.** Whatever has happened to a broker and whatever still waits, it
stops cleanly if its loop has not failed, and does not fail on its way to the stop because the
clock cannot name a deadline. If it has or does, nobody is there to close what was open, and so
it stops cleanly exactly if nobody was connected and no session held. -/
theorem Reachable.stops_cleanly_iff (hnew : b₀.New) (hreach : b₀.Reachable b) :
    b.StopsCleanly ↔
      (b.Goes ∧ (b.isRunning = true → b.hub.deadlineOverflows = false)) ∨ b.Vacant := by
  refine ⟨fun hclean => ?_, hreach.stops_cleanly hnew⟩
  have hparted := hclean.parted _ .refl
  have hcount : b.stop.hub.liveCount = 0 := hparted.count
  by_cases hgoes : b.Goes
  · refine Or.inl ⟨hgoes, fun hruns => ?_⟩
    by_contra hclock
    rw [Bool.not_eq_false] at hclock
    have hturn : b.turn = b.fail .deadlineOverflow := if_pos hclock
    obtain ⟨h, hu, -, heq⟩ := stop_ended (b := b.turn) (hturn ▸ rfl)
    rw [stop_overflowing hruns (hreach.unstopped hnew hruns) hclock, heq] at hcount
    have hcount' : b.hub.liveCount = 0 := (hturn ▸ hu.count).symm.trans hcount
    cases hclock.symm.trans (hreach.clock_of_count hnew (isRunning_iff.mp hruns) hcount')
  · obtain ⟨h, hu, hregistry, heq⟩ := stop_ended (not_running_of_not_goes hgoes)
    have hidle := hparted.idle
    rw [heq] at hcount hidle
    exact Or.inr ⟨hu.count.symm.trans hcount, fun id s hs =>
      hidle id s ((congrArg (·.find? id) hregistry).trans hs)⟩

/-- Somebody has come to the broker. -/
def visited (b : Broker) : Broker := (b.register {} [.ok "S1"]).1.settle

theorem reachable_visited (b : Broker) : b.Reachable b.visited :=
  ((Reachable.refl.moved (.asked {} [.ok "S1"])).spells _ _).1

/-- With the default settings a broker with one client stops cleanly. -/
theorem visited_stops_cleanly : ∃ b₀ : Broker, b₀.New ∧ b₀.Reachable b₀.visited ∧
    b₀.visited.stats.liveClients = 1 ∧ b₀.visited.StopsCleanly := by
  have hstart : Broker.start {} (.start {} 0) = .ok _ := rfl
  have hnew := new_of_start rfl hstart
  refine ⟨_, hnew, reachable_visited _, by decide +kernel,
    ((reachable_visited _).stops_cleanly_iff hnew).mpr
      (Or.inl ⟨fun f hfailed => ?_, fun _ => by decide +kernel⟩)⟩
  exact absurd (isRunning_of_failed hfailed) (by decide +kernel)

end Broker

/-- With settings that the command line takes, the first client ends the loop, and the stop
leaves it connected. -/
theorem App.patient_stop : Settings.read (fun _ => none)
      ["--sse-client-channel-capacity", "0",
        "--sse-slow-consumer-timeout-secs", "18446744073709551615"] = .ok patient ∧
    ∃ app c b, start patient 0 = .ok app ∧ b = app.broker.visited ∧ app.broker.Reachable b ∧
      b.answer? 1 = some (.ok c) ∧ b.stop.isClosed c = false ∧ b.stop.stats.liveClients = 1 ∧
      (b.stop.registry.find? "S1").map (·.active) = some true ∧ ¬ b.StopsCleanly := by
  have hstart : start patient 0 = .ok _ := rfl
  refine ⟨by decide +kernel, _, ⟨⟨1⟩, "S1", false, 0⟩, _, hstart, rfl, Broker.reachable_visited _,
    by decide +kernel, by decide +kernel, by decide +kernel, by decide +kernel, fun hclean => ?_⟩
  have hcount := (hclean.parted _ .refl).count
  exact absurd hcount (by decide +kernel)

end EventRelay
