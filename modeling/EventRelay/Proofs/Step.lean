import EventRelay.Proofs.Fate

/-!
# One act, seen from one session

`Hub.Step` lists all that an act may do at the place of a session, with the outcome of
the act and the conditions, and `Hub.Sound.step` is where the acts are opened to show
it. What happens to one session in the course of a run is proved by cases on the list.

`Hub.Sound.terms_act` says the rest: no act changes the settings, and only waiting moves
the clock.
-/

namespace EventRelay

namespace Place

/-- What a client is told when it reads. -/
def reading (p : Place) (c : ClientId) : Reading :=
  match p.slot.filter (·.client == c) with
  | none => .closed
  | some slot =>
    match slot.channel.queue with
    | [] => .pending
    | e :: _ => .event e

/-- Whoever was admitted is disconnected again if the caller has gone away. -/
def answer (p : Place) (g : Registration) (t : Terms) : Place :=
  if g.abandoned then p.vacate t else p

/-- Whoever is there afterwards was admitted. -/
theorem answer_slot {p : Place} {g : Registration} {t : Terms} {slot : Slot}
    (hslot : (p.answer g t).slot = some slot) : p.slot = some slot := by
  unfold answer at hslot
  split at hslot
  · rw [vacate_slot] at hslot
    cases hslot
  · exact hslot

theorem answer_session (s : Session) (slot : Option Slot) (g : Registration) (t : Terms) :
    ∃ s', (answer ⟨some s, slot⟩ g t).session = some s' ∧ (s' = s ∨ s' = s.disconnect t.now) := by
  unfold answer
  split
  · cases slot with
    | none => exact ⟨s, rfl, Or.inl rfl⟩
    | some slot => exact ⟨_, rfl, Or.inr rfl⟩
  · exact ⟨s, rfl, Or.inl rfl⟩

end Place

namespace Hub

/-- What an act may do at the place of a session. -/
inductive Step (h : Hub) (id : SessionId) : Act → Outcome → Place → Prop
  /-- Nobody is admitted to the session, and nobody reads from it. -/
  | aside {a : Act} {o : Outcome} (hadmits : ∀ c, o = .admitted c → c.session ≠ id)
      (hreads : ∀ c, a = .read c → c.session ≠ id) : Step h id a o (h.place id)
  | reclaimed {g : Registration} {s : Session} (hclaim : h.claim? g = some id)
      (hs : h.registry.find? id = some s) :
      Step h id (.register g)
        (.admitted ⟨g.client, id, true, (s.reclaim g.lastEventId h.now).replay.length⟩)
        (Place.answer ⟨some (s.reclaim g.lastEventId h.now),
          some (h.opening g id true (s.reclaim g.lastEventId h.now).replay)⟩ g h.terms)
  | created {g : Registration} (hclaim : h.claim? g = none) (hs : h.registry.find? id = none) :
      Step h id (.register g) (.admitted ⟨g.client, id, false, 0⟩)
        (Place.answer ⟨some (Session.fresh h.registry.config.bufferCapacity g.metadata h.now),
          some (h.opening g id false [])⟩ g h.terms)
  | dispatched {m : Message} {s : Session} {fs : List Fate} {q : Place}
      (hs : h.registry.find? id = some s) (hlen : fs.length = m.scope.copies id)
      (hcourse : Place.Course (m.scope.keeps m.event) m.event h.terms fs (h.place id) q) :
      Step h id (.dispatch m) .done q
  | inspected : Step h id .reap .done ((h.place id).inspect h.terms)
  | read {c : Client} (hc : c.session = id) :
      Step h id (.read c) (.reading ((h.place id).reading c.id)) ((h.place id).read c.id)
  | left {c : Client} (hc : c.session = id) : Step h id (.leave c) .done ((h.place id).leave c.id)
  | released {client : Option ClientId} {slot : Slot} (hslot : (h.place id).slot = some slot)
      (hclient : client.all (· == slot.client) = true) :
      Step h id (.release id client) .done ((h.place id).vacate h.terms)
  | stopped : Step h id .stop .done ((h.place id).vacate h.terms)
  | swept : Step h id .sweep .done ((h.place id).expire h.terms)
  | looked {s : Option Session} : Step h id (.look id) (.found s) ((h.place id).expire h.terms)

variable {hs : List Client} {h : Hub}

/-! ## Registering -/

/-- A client that was admitted is disconnected again if the caller has gone away. -/
theorem register_ok {g : Registration} {h' : Hub} {c : Client} (haccept : h.accept g = (h', .ok c))
    {slot : Slot} (hslot : Table.get? h'.clients c.session = some slot)
    (hclient : slot.client = c.id)
    (key : SessionId) : (h.register g).2 = .ok c ∧ (h.register g).1.place key
      = if key = c.session then (h'.place key).answer g h'.terms else h'.place key := by
  unfold register
  simp only [haccept]
  cases hgone : g.abandoned with
  | false => simp [Place.answer, hgone]
  | true =>
      have hname : (some c.id).all (· == slot.client) = true := by simp [hclient]
      have hput := place_unregister_some
        (h'.note (.registrationAbandoned c.session)) hslot hname key
      refine ⟨rfl, hput.trans ?_⟩
      simp only [Place.answer, hgone, if_true]
      rfl

theorem Sound.step_register (hS : h.Sound hs) {g : Registration}
    (hfault : ∀ f, (h.register g).2 ≠ .error (.fault f)) (id : SessionId) :
    h.Step id (.register g) (.ofAnswer (h.register g).2) ((h.register g).1.place id) := by
  have hadm := accept_cases h g (fun _ => hS.free) (register_answer h g ▸ hfault)
  cases haccept : h.accept g with
  | mk h' answer =>
      rw [haccept] at hadm
      cases hadm with
      | @refused _ reason hclaim hout =>
          have hregister : h.register g = (h', .error (.refusal reason)) := by
            unfold Hub.register
            rw [haccept]
          rw [hregister, hout.place]
          exact .aside (fun c => Outcome.noConfusion) (fun c => Act.noConfusion)
      | @reclaimed _ key s hclaim hs hin =>
          have hslot := congrArg Place.slot (hin.place key)
          rw [if_pos rfl] at hslot
          obtain ⟨hok, hplace⟩ := register_ok haccept hslot rfl id
          rw [hok, hplace, hin.place, hin.terms]
          by_cases hid : id = key
          · subst hid
            rw [if_pos rfl, if_pos rfl]
            exact .reclaimed hclaim hs
          · rw [if_neg hid, if_neg hid]
            refine .aside ?_ (fun c => Act.noConfusion)
            rintro c ⟨⟩
            exact Ne.symm hid
      | @created _ key hclaim hs hin =>
          have hslot := congrArg Place.slot (hin.place key)
          rw [if_pos rfl] at hslot
          obtain ⟨hok, hplace⟩ := register_ok haccept hslot rfl id
          rw [hok, hplace, hin.place, hin.terms]
          by_cases hid : id = key
          · subst hid
            rw [if_pos rfl, if_pos rfl]
            exact .created hclaim hs
          · rw [if_neg hid, if_neg hid]
            refine .aside ?_ (fun c => Act.noConfusion)
            rintro c ⟨⟩
            exact Ne.symm hid

/-! ## The other acts -/

theorem step_release (id key : SessionId) (client : Option ClientId) :
    h.Step id (.release key client) .done ((h.release key client).place id) := by
  have hplace : (h.release key client).place id = (h.unregister key client).1.place id := by
    unfold release
    split
    · next h' heq => rw [heq]; rfl
    · next h' heq => rw [heq]
  have haside : h.Step id (.release key client) .done (h.place id) :=
    .aside (fun c => Outcome.noConfusion) (fun c => Act.noConfusion)
  rw [hplace]
  by_cases hout : ∃ slot, Table.get? h.clients key = some slot ∧
      client.all (· == slot.client) = true
  · obtain ⟨slot, hslot, hclient⟩ := hout
    rw [place_unregister_some h hslot hclient]
    split
    · next hid =>
        subst hid
        exact .released hslot hclient
    · exact haside
  · rw [unregister_none h]
    · exact haside
    · intro slot hslot
      rw [← Bool.not_eq_true]
      exact fun hclient => hout ⟨slot, hslot, hclient⟩

theorem read_reading (c : Client) : (h.read c).2 = (h.place c.session).reading c.id := by
  unfold read Place.reading
  rw [slot?_eq]
  cases (h.place c.session).slot.filter (·.client == c.id) with
  | none => rfl
  | some slot => cases hqueue : slot.channel.queue <;> simp only [hqueue]

theorem Sound.step_dispatch (hS : h.Sound hs) (m : Message) (id : SessionId) :
    h.Step id (.dispatch m) .done ((h.dispatch m).place id) := by
  cases hs : h.registry.find? id with
  | none =>
      rw [hS.dispatch_absent m hs]
      exact .aside (fun c => Outcome.noConfusion) (fun c => Act.noConfusion)
  | some s =>
      obtain ⟨fs, hlen, hcourse⟩ := hS.course_dispatch m hs
      exact .dispatched hs hlen hcourse

/-- **All that an act may do at one place.** -/
theorem Sound.step (hS : h.Sound hs) (a : Act) (hfault : (h.act a).2.isFault = false)
    (id : SessionId) : h.Step id a (h.act a).2 ((h.act a).1.place id) := by
  have haside : ∀ {a o}, (∀ c, o ≠ .admitted c) → (∀ c, a ≠ .read c) → h.Step id a o (h.place id) :=
    fun hadmits hreads =>
      .aside (fun c hc => absurd hc (hadmits c)) fun c hc => absurd hc (hreads c)
  cases a with
  | register g => exact hS.step_register (Outcome.ne_fault hfault) id
  | release key client => exact step_release id key client
  | dispatch m => exact hS.step_dispatch m id
  | reap =>
      rw [Hub.act, place_reap h hS.clients_nodup]
      exact .inspected
  | stop =>
      rw [Hub.act, place_closeAll]
      exact .stopped
  | read c =>
      rw [Hub.act, place_read]
      split
      · next hid =>
          subst hid
          rw [read_reading]
          exact .read rfl
      · next hid =>
          refine .aside (fun c => Outcome.noConfusion) ?_
          rintro c ⟨⟩
          exact Ne.symm hid
  | leave c =>
      rw [Hub.act, place_leave]
      split
      · next hid => exact .left hid.symm
      · exact haside nofun nofun
  | wait span => exact haside nofun nofun
  | sweep =>
      rw [Hub.act, place_sweep h hS.sessions_nodup]
      exact .swept
  | look key =>
      rw [Hub.act, place_lookup]
      split
      · next hid =>
          subst hid
          exact .looked
      · exact haside nofun nofun
  | ask key claimant => exact haside nofun nofun

/-- What is known of a client at its admission. -/
theorem Step.admitted {g : Registration} {c : Client} {id : SessionId} {q : Place}
    (hstep : h.Step id (.register g) (.admitted c) q) (hid : c.session = id) :
    ∃ s : Session,
      q = Place.answer ⟨some s, some (h.opening g id c.reconnected s.replay)⟩ g h.terms ∧
      c.id = g.client ∧ c.replayed = s.replay.length ∧
      (c.reconnected = true ∧ h.claim? g = some id ∧
          (∃ s₀, h.registry.find? id = some s₀ ∧ s = s₀.reclaim g.lastEventId h.now) ∨
        c.reconnected = false ∧ h.claim? g = none ∧ h.registry.find? id = none ∧
          s = Session.fresh h.registry.config.bufferCapacity g.metadata h.now) := by
  cases hstep with
  | aside hadmits hreads => exact absurd hid (hadmits c rfl)
  | reclaimed hclaim hs => exact ⟨_, rfl, rfl, rfl, Or.inl ⟨rfl, hclaim, _, hs, rfl⟩⟩
  | created hclaim hs => exact ⟨_, rfl, rfl, rfl, Or.inr ⟨rfl, hclaim, hs, rfl⟩⟩

/-! ## Settings and the clock -/

theorem terms_dispatchLive (h : Hub) (e : Event) : (h.dispatchLive e).terms = h.terms := by
  obtain ⟨journal, -, heq⟩ := offerAll_eq h e
  unfold dispatchLive
  rw [heq]
  exact terms_foldl_forceDisconnect _ _

theorem terms_foldl_dispatchTo (e : Event) (ids : List SessionId) (h : Hub) :
    (ids.foldl (fun h id => h.dispatchTo e id) h).terms = h.terms := by
  induction ids generalizing h with
  | nil => rfl
  | cons id ids ih => rw [List.foldl_cons, ih, terms_dispatchTo]

theorem terms_dispatch (h : Hub) (m : Message) : (h.dispatch m).terms = h.terms := by
  unfold dispatch
  split
  · show Terms.mk _ (Registry.bufferAll _ _).1.config (Registry.bufferAll _ _).1.now = _
    exact terms_dispatchLive h m.event
  · exact terms_dispatchLive h m.event
  · exact terms_foldl_dispatchTo m.event _ h

theorem terms_release (h : Hub) (id : SessionId) (client : Option ClientId) :
    (h.release id client).terms = h.terms := by
  rw [← terms_unregister h id client]
  unfold release
  split
  · next h' heq => rw [heq]; rfl
  · next h' heq => rw [heq]

theorem terms_read (h : Hub) (c : Client) : (h.read c).1.terms = h.terms := by
  unfold read
  split
  · rfl
  · split <;> rfl

theorem terms_leave (h : Hub) (c : Client) : (h.leave c).terms = h.terms := by
  unfold leave
  split <;> rfl

theorem Admission.terms {g : Registration} {h' : Hub} {answer : Except Obstacle Client}
    (hadm : h.Admission g (h', answer)) : h'.terms = h.terms := by
  cases hadm with
  | refused hclaim hout => exact hout.terms
  | reclaimed hclaim hs hin => exact hin.terms
  | created hclaim hs hin => exact hin.terms

theorem Sound.terms_register (hS : h.Sound hs) {g : Registration}
    (hfault : ∀ f, (h.register g).2 ≠ .error (.fault f)) : (h.register g).1.terms = h.terms := by
  have hadm := accept_cases h g (fun _ => hS.free) (register_answer h g ▸ hfault)
  unfold Hub.register
  cases haccept : h.accept g with
  | mk h' answer =>
      rw [haccept] at hadm
      cases answer with
      | error o => exact hadm.terms
      | ok c =>
          dsimp only
          split
          · rw [terms_unregister]
            exact hadm.terms
          · exact hadm.terms

end Hub

/-- The time after an act that was begun at a given time. -/
def Act.clock (now : Nat) : Act → Nat
  | .wait span => now + span
  | _ => now

open Hub in
/-- No act changes the settings, and only waiting moves the clock. -/
theorem Hub.Sound.terms_act {hs : List Client} {h : Hub} (hS : h.Sound hs) (a : Act)
    (hfault : (h.act a).2.isFault = false) :
    (h.act a).1.terms = { h.terms with now := a.clock h.now } := by
  cases a with
  | register g => exact hS.terms_register (Outcome.ne_fault hfault)
  | release id client => exact terms_release h id client
  | dispatch m => exact terms_dispatch h m
  | reap =>
      rw [Hub.act, reap_eq]
      exact terms_foldl_forceDisconnect _ _
  | stop => exact terms_closeAll h
  | read c => exact terms_read h c
  | leave c => exact terms_leave h c
  | wait span => rfl
  | sweep =>
      obtain ⟨hconfig, hnow⟩ := registry_sweep_terms h.registry
      show Terms.mk h.config h.registry.sweep.1.config h.registry.sweep.1.now = _
      rw [hconfig, hnow]
      rfl
  | look id =>
      obtain ⟨hconfig, hnow⟩ := registry_lookup_terms h.registry id
      show Terms.mk h.config (h.registry.lookup id).1.config (h.registry.lookup id).1.now = _
      rw [hconfig, hnow]
      rfl
  | ask id claimant => rfl

/-! ## The timer of the background sweep

That the clock stands still is said here again without any condition, for a loop that
fails in the middle of an act. -/

/-- Neither the clock nor the timer of the background sweep has moved. -/
def Registry.SameTime (r r' : Registry) : Prop := r'.now = r.now ∧ r'.sweeper = r.sweeper

namespace Registry

theorem SameTime.refl (r : Registry) : r.SameTime r := ⟨rfl, rfl⟩

theorem SameTime.trans {r r' r'' : Registry} (hr : r.SameTime r') (hr' : r'.SameTime r'') :
    r.SameTime r'' := ⟨hr'.1.trans hr.1, hr'.2.trans hr.2⟩

theorem sameTime_disconnect (r : Registry) (id : SessionId) : r.SameTime (r.disconnect id) := by
  unfold disconnect
  split <;> exact ⟨rfl, rfl⟩

theorem sameTime_foldl_disconnect (ids : List SessionId) (r : Registry) :
    r.SameTime (ids.foldl disconnect r) := by
  induction ids generalizing r with
  | nil => exact .refl r
  | cons id ids ih => exact (r.sameTime_disconnect id).trans (ih _)

theorem sameTime_buffer (r : Registry) (id : SessionId) (e : Event) :
    r.SameTime (r.buffer id e) := by
  unfold buffer
  split
  · exact ⟨rfl, rfl⟩
  · split
    · exact .refl r
    · split <;> exact ⟨rfl, rfl⟩

theorem sameTime_lookup (r : Registry) (id : SessionId) : r.SameTime (r.lookup id).1 := by
  unfold lookup
  split
  · exact .refl r
  · split <;> exact ⟨rfl, rfl⟩

theorem sameTime_sweep (r : Registry) : r.SameTime r.sweep.1 := by
  unfold sweep
  dsimp only
  split <;> exact ⟨rfl, rfl⟩

theorem sameTime_reclaim (r : Registry) (id : SessionId) (last : Option EventId) :
    r.SameTime (r.reclaim id last).1 := by
  have hlookup := r.sameTime_lookup id
  unfold reclaim
  split
  · next r' heq => rwa [heq] at hlookup
  · next r' s heq =>
      rw [heq] at hlookup
      exact hlookup.trans ⟨rfl, rfl⟩

theorem sameTime_hold (r : Registry) (id : SessionId) : r.SameTime (r.hold id) := by
  unfold hold
  split <;> exact ⟨rfl, rfl⟩

theorem sameTime_create (m : Metadata) : ∀ (draws : List Draw) (r : Registry),
    r.SameTime (r.create m draws).1
  | [], _ => ⟨rfl, rfl⟩
  | .error _ :: _, _ => ⟨rfl, rfl⟩
  | .ok _ :: rest, r => by
      rw [create]
      split
      · exact SameTime.trans ⟨rfl, rfl⟩ (sameTime_create m rest (r.note .sessionIdTaken))
      · split <;> exact ⟨rfl, rfl⟩

end Registry

namespace Hub

open Registry

theorem sameTime_unregister (h : Hub) (id : SessionId) (client : Option ClientId) :
    h.registry.SameTime (h.unregister id client).1.registry := by
  unfold unregister
  split
  · split
    · exact h.registry.sameTime_disconnect id
    · exact .refl _
  · exact .refl _

theorem sameTime_forceDisconnect (h : Hub) (id : SessionId) :
    h.registry.SameTime (h.forceDisconnect id).registry := by
  have hunregister := h.sameTime_unregister id none
  unfold forceDisconnect
  split
  · next h' heq =>
      rw [heq] at hunregister
      exact hunregister
  · next h' heq => rwa [heq] at hunregister

theorem sameTime_foldl_forceDisconnect (ids : List SessionId) (h : Hub) :
    h.registry.SameTime (ids.foldl forceDisconnect h).registry := by
  induction ids generalizing h with
  | nil => exact .refl _
  | cons id ids ih => exact (h.sameTime_forceDisconnect id).trans (ih _)

theorem sameTime_release (h : Hub) (id : SessionId) (client : Option ClientId) :
    h.registry.SameTime (h.release id client).registry := by
  have hunregister := h.sameTime_unregister id client
  unfold release
  split
  · next h' heq =>
      rw [heq] at hunregister
      exact hunregister
  · next h' heq => rwa [heq] at hunregister

theorem sameTime_dispatchTo (h : Hub) (e : Event) (id : SessionId) :
    h.registry.SameTime (h.dispatchTo e id).registry := by
  have hoffer : (h.offer id e).1.registry = h.registry := by
    unfold offer
    split
    · rfl
    · dsimp only
      split <;> rfl
  unfold dispatchTo
  split
  · next h' heq =>
      rw [heq] at hoffer
      exact hoffer ▸ h'.registry.sameTime_buffer id e
  · next h' delivery heq =>
      rw [heq] at hoffer
      rw [← hoffer]
      split
      · exact (h'.sameTime_forceDisconnect id).trans (Registry.sameTime_buffer _ id e)
      · exact .refl _

theorem sameTime_dispatchLive (h : Hub) (e : Event) :
    h.registry.SameTime (h.dispatchLive e).registry :=
  sameTime_foldl_forceDisconnect _ (h.offerAll e).1

theorem sameTime_foldl_dispatchTo (e : Event) (ids : List SessionId) (h : Hub) :
    h.registry.SameTime (ids.foldl (fun h id => h.dispatchTo e id) h).registry := by
  induction ids generalizing h with
  | nil => exact .refl _
  | cons id ids ih => exact (h.sameTime_dispatchTo e id).trans (ih _)

theorem sameTime_dispatch (h : Hub) (m : Message) :
    h.registry.SameTime (h.dispatch m).registry := by
  unfold dispatch
  split
  · exact (h.sameTime_dispatchLive m.event).trans ⟨rfl, rfl⟩
  · exact h.sameTime_dispatchLive m.event
  · exact sameTime_foldl_dispatchTo m.event _ h

theorem openClient_registry (h : Hub) (g : Registration) (id : SessionId) (reconnects : Option Nat)
    (replay : List Event) : (h.openClient g id reconnects replay).1.registry = h.registry := by
  unfold openClient
  dsimp only
  split
  · rfl
  · split
    · rfl
    · cases reconnects <;> cases Table.get? h.clients id <;> rfl

theorem sameTime_accept (h : Hub) (g : Registration) :
    h.registry.SameTime (h.accept g).1.registry := by
  cases hclaim : h.claim? g with
  | some id =>
      obtain ⟨-, -, s, hs, -⟩ := h.claim?_eq_some hclaim
      rw [h.accept_reclaimed hclaim hs, openClient_registry]
      exact ⟨rfl, rfl⟩
  | none =>
      have hcreate := sameTime_create g.metadata g.draws h.registry
      rw [h.accept_created hclaim]
      split
      · next heq => rwa [heq] at hcreate
      · next heq =>
          rw [openClient_registry]
          rwa [heq] at hcreate

theorem sameTime_register (h : Hub) (g : Registration) :
    h.registry.SameTime (h.register g).1.registry := by
  have haccept := h.sameTime_accept g
  unfold register
  split
  · next h' o heq => rwa [heq] at haccept
  · next h' c heq =>
      rw [heq] at haccept
      split
      · exact haccept.trans (sameTime_unregister _ _ _)
      · exact haccept

/-- Only waiting moves the clock, and no act starts or stops the background sweep. -/
theorem sameTime_act (h : Hub) {a : Act} (hclock : ∀ span, a ≠ .wait span) :
    h.registry.SameTime (h.act a).1.registry := by
  cases a with
  | register g => exact h.sameTime_register g
  | release id client => exact h.sameTime_release id client
  | dispatch m => exact h.sameTime_dispatch m
  | reap => exact sameTime_foldl_forceDisconnect _ _
  | stop => exact sameTime_foldl_disconnect _ h.registry
  | read c =>
      show h.registry.SameTime (h.read c).1.registry
      unfold Hub.read
      split
      · exact .refl _
      · split <;> exact .refl _
  | leave c =>
      show h.registry.SameTime (h.leave c).registry
      unfold Hub.leave
      split <;> exact .refl _
  | wait span => exact absurd rfl (hclock span)
  | sweep => exact h.registry.sameTime_sweep
  | look id => exact h.registry.sameTime_lookup id
  | ask id claimant => exact .refl _

end Hub

end EventRelay
