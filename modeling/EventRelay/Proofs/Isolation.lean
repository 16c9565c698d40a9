import EventRelay.Proofs.Retention

/-!
# Messages to others

What an act makes of one place is a function of that place, of the settings and of the
clock (`Hub.Sound.place_act`), except that a registration may come from elsewhere and be
given the session as a new one. So two hubs that are `Alike` at a session stay so under the
same acts, and a message to other sessions changes nothing at this one, whatever it does to
their queues, their clients and their buffers. `Run.isolated` compares two such runs.
-/

namespace EventRelay

namespace Place

/-- The given client is let go, or whoever there is. -/
def letGo (p : Place) (client : Option ClientId) (t : Terms) : Place :=
  if p.slot.any (fun slot => client.all (· == slot.client)) then p.vacate t else p

/-- The place of the session `id` after an act, unless the act admits somebody there. -/
def next (p : Place) (t : Terms) (id : SessionId) : Act → Place
  | .release key client => if id = key then p.letGo client t else p
  | .dispatch m =>
    if m.scope = .live then p.tell m.event t
    else (fun q => q.receive m.event t)^[m.scope.copies id] p
  | .reap => p.inspect t
  | .stop => p.vacate t
  | .read c => if id = c.session then p.read c.id else p
  | .leave c => if id = c.session then p.leave c.id else p
  | .sweep => p.expire t
  | .look key => if id = key then p.expire t else p
  | .register _ | .wait _ | .ask _ _ => p

end Place

namespace Hub

variable {h h' : Hub} {id : SessionId} {a : Act} {o : Outcome} {q : Place} {hs hs' : List Client}
  {g : Registration} {c : Client}

/-! ## One place after an act -/

theorem place_release_eq (h : Hub) (key : SessionId) (client : Option ClientId) :
    (h.release key client).place id
      = if id = key then (h.place id).letGo client h.terms else h.place id := by
  have hplace : (h.release key client).place id = (h.unregister key client).1.place id := by
    unfold release
    split
    · next h' heq => rw [heq]; rfl
    · next h' heq => rw [heq]
  rw [hplace]
  cases hout : (h.place key).slot.any fun slot => client.all (· == slot.client) with
  | true =>
      obtain ⟨slot, hslot, hclient⟩ := (Option.any_eq_true _ _).mp hout
      rw [place_unregister_some h hslot hclient]
      split
      · next hid =>
          subst hid
          rw [Place.letGo, if_pos hout]
      · rfl
  | false =>
      rw [unregister_none h]
      · split
        · next hid =>
            subst hid
            rw [Place.letGo, if_neg (Bool.eq_false_iff.mp hout)]
            rfl
        · rfl
      · intro slot hslot
        rw [show (h.place key).slot = some slot from hslot] at hout
        exact hout

theorem Sound.place_act (hS : h.Sound hs) (hreg : ∀ g, a ≠ .register g) :
    (h.act a).1.place id = (h.place id).next h.terms id a := by
  cases a with
  | register g => exact absurd rfl (hreg g)
  | release key client => exact place_release_eq h key client
  | dispatch m =>
      rw [Place.next, Hub.act]
      split
      · next hlive =>
          obtain ⟨e, scope⟩ := m
          obtain rfl : scope = .live := hlive
          exact place_dispatch_live h hS.clients_nodup e id
      · next hlive =>
          exact place_dispatch h hS.clients_nodup (fun key => (hS.place key).held) hlive id
  | reap => exact place_reap h hS.clients_nodup id
  | stop => exact place_closeAll h id
  | read c => exact place_read h c id
  | leave c => exact place_leave h c id
  | wait span => rfl
  | sweep => exact place_sweep h hS.sessions_nodup id
  | look key => exact place_lookup h key id
  | ask key claimant => rfl

/-- A message to other sessions does nothing here. -/
theorem Sound.place_others (hS : h.Sound hs) (e : Event) {ids : List SessionId}
    (hother : id ∉ ids) :
    (h.act (.dispatch ⟨e, .sessions ids⟩)).1.place id = h.place id := by
  rw [hS.place_act fun _ => Act.noConfusion, Place.next, if_neg Scope.noConfusion, Scope.copies,
    List.count_eq_zero_of_not_mem hother]
  rfl

/-! ## Where new sessions come from -/

theorem openClient_ok {reconnects : Option Nat} {replay : List Event}
    (hok : (h.openClient g id reconnects replay).2 = .ok c) :
    c.session = id ∧ c.reconnected = reconnects.isSome := by
  unfold openClient at hok
  dsimp only at hok
  split at hok
  · cases hok
  · split at hok
    · cases hok
    · cases hok
      exact ⟨rfl, rfl⟩

theorem create_draws {m : Metadata} : ∀ {draws : List Draw} {r : Registry},
    (r.create m draws).2 = .ok id → .ok id ∈ draws
  | [], r, hok => by cases hok
  | .error reason :: _, r, hok => by cases hok
  | .ok key :: rest, r, hok => by
      rw [Registry.create] at hok
      split at hok
      · exact List.mem_cons_of_mem _ (create_draws hok)
      · split at hok
        · cases hok
        · obtain rfl := Except.ok.inj hok
          exact List.mem_cons_self ..

/-- A session that is new bears an id that was drawn for it. -/
theorem accept_draws (hok : (h.accept g).2 = .ok c) (hnew : c.reconnected = false) :
    .ok c.session ∈ g.draws := by
  unfold accept at hok
  dsimp only at hok
  split at hok
  · cases (openClient_ok hok).2.symm.trans hnew
  · split at hok
    · cases hok
    · next r key heq =>
        rw [(openClient_ok hok).1]
        exact create_draws (congrArg Prod.snd heq)

/-! ## Registrations -/

theorem Step.register_aside (hstep : h.Step id (.register g) o q)
    (hadmits : ∀ c, o = .admitted c → c.session ≠ id) : q = h.place id := by
  cases hstep with
  | aside => rfl
  | reclaimed => exact absurd rfl (hadmits _ rfl)
  | created => exact absurd rfl (hadmits _ rfl)

/-- A registration that may not have the session does nothing here, unless its id is drawn. -/
theorem Sound.register_aside (hS : h.Sound hs) (hfault : (h.act (.register g)).2.isFault = false)
    (hclaim : h.claim? g ≠ some id) (hdraws : .ok id ∉ g.draws) :
    (h.act (.register g)).1.place id = h.place id ∧
      ∀ c, (h.act (.register g)).2 = .admitted c → c.session ≠ id := by
  have hadmits : ∀ c, (h.act (.register g)).2 = .admitted c → c.session ≠ id := by
    rintro c hout rfl
    have hstep := hS.step (.register g) hfault c.session
    rw [hout] at hstep
    obtain ⟨s, -, -, -, ⟨-, hclaim', -⟩ | ⟨hnew, -⟩⟩ := hstep.admitted rfl
    · exact hclaim hclaim'
    · refine hdraws (accept_draws (h := h) ?_ hnew)
      rw [← register_answer]
      exact Outcome.ok_of_admitted hout
  exact ⟨(hS.step (.register g) hfault id).register_aside hadmits, hadmits⟩

/-- What becomes of the session that a registration gets back. -/
theorem Sound.register_claimed (hS : h.Sound hs) (hfault : (h.act (.register g)).2.isFault = false)
    (hclaim : h.claim? g = some id) : ∃ s, h.registry.find? id = some s ∧
      (h.act (.register g)).2
        = .admitted ⟨g.client, id, true, (s.reclaim g.lastEventId h.now).replay.length⟩ ∧
      (h.act (.register g)).1.place id = Place.answer ⟨some (s.reclaim g.lastEventId h.now),
        some (h.opening g id true (s.reclaim g.lastEventId h.now).replay)⟩ g h.terms := by
  obtain ⟨c, hout, hid, hback⟩ := (hS.reclaims_iff hfault).mpr hclaim
  have hstep := hS.step (.register g) hfault id
  rw [hout] at hstep
  obtain ⟨s, hplace, hname, hcount, ⟨-, -, s₀, hs₀, rfl⟩ | ⟨hnew, -⟩⟩ := hstep.admitted hid
  · refine ⟨s₀, hs₀, ?_, hback ▸ hplace⟩
    rw [hout, ← hname, ← hid, ← hback, ← hcount]
  · cases hback.symm.trans hnew

/-! ## Hubs that are alike -/

/-- The hubs have the same at the session, the same settings and the same time. -/
structure Alike (id : SessionId) (h h' : Hub) : Prop where
  terms : h'.terms = h.terms
  place : h'.place id = h.place id

theorem Alike.claim? (ha : h.Alike id h') (g : Registration) :
    h'.claim? g = some id ↔ h.claim? g = some id := by
  have hfind : h'.registry.find? id = h.registry.find? id := congrArg Place.session ha.place
  have hslot : Table.get? h'.clients id = Table.get? h.clients id := congrArg Place.slot ha.place
  have hconfig : h'.registry.config = h.registry.config := congrArg Terms.sessions ha.terms
  have hnow : h'.registry.now = h.registry.now := congrArg Terms.now ha.terms
  simp only [claim?_iff, hslot, Registry.claimable, Registry.isExpired, hfind, hconfig, hnow]

theorem Alike.opening (ha : h.Alike id h') (g : Registration) (reconnected : Bool)
    (replay : List Event) :
    h'.opening g id reconnected replay = h.opening g id reconnected replay := by
  have hconfig : h'.config = h.config := congrArg Terms.config ha.terms
  have hnow : h'.now = h.now := congrArg Terms.now ha.terms
  simp only [Hub.opening, hconfig, hnow]

/-- Hubs that are alike stay so under the same act, and admit the same clients to the
session. -/
theorem Alike.act (ha : h.Alike id h') (hS : h.Sound hs) (hS' : h'.Sound hs')
    (hfault : (h.act a).2.isFault = false) (hfault' : (h'.act a).2.isFault = false)
    (hdraws : ∀ g, a = .register g → .ok id ∉ g.draws) :
    (h.act a).1.Alike id (h'.act a).1 ∧
      ∀ c, c.session = id → ((h'.act a).2 = .admitted c ↔ (h.act a).2 = .admitted c) := by
  have hnow : h'.now = h.now := congrArg Terms.now ha.terms
  have hterms : (h'.act a).1.terms = (h.act a).1.terms := by
    rw [hS.terms_act a hfault, hS'.terms_act a hfault', ha.terms, hnow]
  by_cases hreg : ∃ g, a = .register g
  · obtain ⟨g, rfl⟩ := hreg
    by_cases hclaim : h.claim? g = some id
    · obtain ⟨s, hs, hout, hplace⟩ := hS.register_claimed hfault hclaim
      obtain ⟨s', hs', hout', hplace'⟩ := hS'.register_claimed hfault' ((ha.claim? g).mpr hclaim)
      obtain rfl : s' = s := by
        have hfind : h'.registry.find? id = h.registry.find? id := congrArg Place.session ha.place
        exact Option.some.inj (hs'.symm.trans (hfind.trans hs))
      refine ⟨⟨hterms, ?_⟩, fun c _ => ?_⟩
      · rw [hplace, hplace', ha.opening, ha.terms, hnow]
      · rw [hout, hout', hnow]
    · obtain ⟨hplace, hadmits⟩ := hS.register_aside hfault hclaim (hdraws g rfl)
      obtain ⟨hplace', hadmits'⟩ :=
        hS'.register_aside hfault' (fun hc => hclaim ((ha.claim? g).mp hc)) (hdraws g rfl)
      refine ⟨⟨hterms, by rw [hplace, hplace', ha.place]⟩, fun c hid => ?_⟩
      exact ⟨fun hout => absurd hid (hadmits' c hout), fun hout => absurd hid (hadmits c hout)⟩
  · have hreg' : ∀ g, a ≠ .register g := fun g heq => hreg ⟨g, heq⟩
    refine ⟨⟨hterms, by rw [hS.place_act hreg', hS'.place_act hreg', ha.place, ha.terms]⟩, ?_⟩
    intro c _
    have hnobody : ∀ h : Hub, (h.act a).2 ≠ .admitted c := by
      intro h hout
      exact hreg (Moment.registration (x := ⟨a, h⟩) hout)
    exact ⟨fun hout => absurd hout (hnobody h'), fun hout => absurd hout (hnobody h)⟩

end Hub

/-! ## More messages to others -/

/-- The second list has the same acts as the first, and more messages, all to other sessions. -/
inductive Act.Adds (id : SessionId) : List Act → List Act → Prop
  | nil : Adds id [] []
  | same (a : Act) {as bs : List Act} (hadds : Adds id as bs) : Adds id (a :: as) (a :: bs)
  | more (e : Event) {ids : List SessionId} (hother : id ∉ ids) {as bs : List Act}
      (hadds : Adds id as bs) : Adds id as (.dispatch ⟨e, .sessions ids⟩ :: bs)

/-- What those see who present a session or read from it. -/
inductive Sight where
  /-- A registration presents the session, and gets it back with the replay if there is one. -/
  | presented (client : ClientId) (replay : Option (List Event))
  | read (client : ClientId) (reading : Reading)
  deriving Repr, DecidableEq

namespace Hub

/-- The replay with which a registration gets the session back. -/
def replay? (h : Hub) (id : SessionId) (g : Registration) : Option (List Event) :=
  match (h.act (.register g)).2 with
  | .admitted c =>
    if c.session = id ∧ c.reconnected = true then
      ((h.act (.register g)).1.registry.find? id).map Session.replay
    else none
  | _ => none

def sight? (h : Hub) (id : SessionId) : Act → Option Sight
  | .register g =>
      if g.candidate = some id then some (.presented g.client (h.replay? id g)) else none
  | .read c => if c.session = id then some (.read c.id (h.read c).2) else none
  | _ => none

/-- What is seen of the session in the course of some acts. -/
def sights (id : SessionId) : List Act → Hub → List Sight
  | [], _ => []
  | a :: acts, h => (h.sight? id a).toList ++ sights id acts (h.act a).1

variable {h h' : Hub} {id : SessionId} {a : Act} {hs hs' : List Client} {g : Registration}

theorem replay?_eq_some {es : List Event} : h.replay? id g = some es ↔
    ∃ c, (h.act (.register g)).2 = .admitted c ∧ c.session = id ∧ c.reconnected = true ∧
      ∃ s, ((h.act (.register g)).1.place id).session = some s ∧ s.replay = es := by
  unfold replay?
  cases (h.act (.register g)).2 <;> simp [Hub.place, and_assoc]

/-- What a registration is handed out that gets the session back. -/
theorem Sound.replay?_iff (hS : h.Sound hs) {es : List Event} : h.replay? id g = some es ↔
    (h.act (.register g)).2.isFault = false ∧ h.claim? g = some id ∧
      ∃ s, h.registry.find? id = some s ∧ es = (s.reclaim g.lastEventId h.now).replay := by
  have hsame : ∀ (s : Session) (slot : Option Slot),
      (Place.answer ⟨some s, slot⟩ g h.terms).session.map Session.replay = some s.replay := by
    intro s slot
    obtain ⟨s', hs', rfl | rfl⟩ := Place.answer_session s slot g h.terms <;> rw [hs'] <;> rfl
  constructor
  · intro hback
    obtain ⟨c, hout, hid, hreclaimed, s', hs', rfl⟩ := replay?_eq_some.mp hback
    have hfault : (h.act (.register g)).2.isFault = false := by rw [hout]; rfl
    have hclaim := (hS.reclaims_iff hfault).mp ⟨c, hout, hid, hreclaimed⟩
    obtain ⟨s, hs, -, hplace⟩ := hS.register_claimed hfault hclaim
    have hreplay := hsame (s.reclaim g.lastEventId h.now)
      (some (h.opening g id true (s.reclaim g.lastEventId h.now).replay))
    rw [← hplace, hs'] at hreplay
    exact ⟨hfault, hclaim, s, hs, Option.some.inj hreplay⟩
  · rintro ⟨hfault, hclaim, s, hs, rfl⟩
    obtain ⟨s', hs', hout, hplace⟩ := hS.register_claimed hfault hclaim
    obtain rfl := Option.some.inj (hs.symm.trans hs')
    obtain ⟨s'', hs'', hreplay⟩ := Option.map_eq_some_iff.mp (hplace ▸ hsame _ _)
    exact replay?_eq_some.mpr ⟨_, hout, rfl, rfl, s'', hs'', hreplay⟩

/-- Hubs that are alike show the same. -/
theorem Alike.sight? (ha : h.Alike id h')
    (hnext : (h.act a).1.Alike id (h'.act a).1)
    (hadmits : ∀ c, c.session = id → ((h'.act a).2 = .admitted c ↔ (h.act a).2 = .admitted c)) :
    h'.sight? id a = h.sight? id a := by
  cases a with
  | register g =>
      have hreplay : h'.replay? id g = h.replay? id g := by
        ext es
        rw [replay?_eq_some, replay?_eq_some, hnext.place]
        refine exists_congr fun c => ?_
        by_cases hid : c.session = id
        · rw [hadmits c hid]
        · simp [hid]
      simp only [Hub.sight?, hreplay]
  | read c =>
      simp only [Hub.sight?]
      split
      · next hid => rw [read_reading, read_reading, hid, ha.place]
      · rfl
  | _ => rfl

end Hub

/-- Two runs, alike at the session and in the clients that were admitted to it. -/
structure Run.Alike (id : SessionId) (past : List Occurrence) (h : Hub) (past' : List Occurrence)
    (h' : Hub) : Prop where
  left : Run past h
  right : Run past' h'
  alike : h.Alike id h'
  handles : ∀ c, c.session = id → (c ∈ handles past' ↔ c ∈ handles past)

namespace Run.Alike

variable {past past' : List Occurrence} {h h' : Hub} {id : SessionId}

theorem same (hr : Run.Alike id past h past' h') (a : Act) (hnew : a.newcomer past)
    (hfault : (h.act a).2.isFault = false) (hnew' : a.newcomer past')
    (hfault' : (h'.act a).2.isFault = false) (hdraws : ∀ g, a = .register g → .ok id ∉ g.draws) :
    Run.Alike id (⟨a, (h.act a).2⟩ :: past) (h.act a).1 (⟨a, (h'.act a).2⟩ :: past') (h'.act a).1 ∧
      h'.sight? id a = h.sight? id a := by
  obtain ⟨halike, hadmits⟩ := hr.alike.act hr.left.sound hr.right.sound hfault hfault' hdraws
  refine ⟨⟨hr.left.step a hnew hfault, hr.right.step a hnew' hfault', halike, ?_⟩,
    hr.alike.sight? halike hadmits⟩
  intro c hid
  rw [mem_handles_cons, mem_handles_cons, hadmits c hid, hr.handles c hid]

theorem more (hr : Run.Alike id past h past' h') (e : Event) {ids : List SessionId}
    (hother : id ∉ ids) : Run.Alike id past h
      (⟨.dispatch ⟨e, .sessions ids⟩, .done⟩ :: past') (h'.dispatch ⟨e, .sessions ids⟩) := by
  refine ⟨hr.left, hr.right.step (.dispatch ⟨e, .sessions ids⟩) trivial rfl, ⟨?_, ?_⟩, ?_⟩
  · exact (Hub.terms_dispatch h' _).trans hr.alike.terms
  · exact (hr.right.sound.place_others e hother).trans hr.alike.place
  · intro c hid
    rw [mem_handles_cons, hr.handles c hid]
    simp

/-- Runs that are alike stay so, and show the same, if the second gets more messages to
others. -/
theorem play {as bs : List Act} (hadds : Act.Adds id as bs)
    (hdraws : ∀ g, .register g ∈ as → .ok id ∉ g.draws) (hr : Run.Alike id past h past' h')
    {s s' : List Occurrence × Hub} (hs : EventRelay.play as (past, h) = some s)
    (hs' : EventRelay.play bs (past', h') = some s') :
    Run.Alike id s.1 s.2 s'.1 s'.2 ∧ h'.sights id bs = h.sights id as := by
  induction hadds generalizing past h past' h' with
  | nil =>
      obtain rfl := Option.some.inj hs
      obtain rfl := Option.some.inj hs'
      exact ⟨hr, rfl⟩
  | @same a as bs hadds ih =>
      rw [EventRelay.play] at hs hs'
      split at hs
      · next hok =>
          split at hs'
          · next hok' =>
              have hdraws' : ∀ g, a = .register g → .ok id ∉ g.draws :=
                fun g heq => hdraws g (heq ▸ List.mem_cons_self ..)
              obtain ⟨hnext, hsight⟩ := hr.same a hok.1 hok.2 hok'.1 hok'.2 hdraws'
              obtain ⟨hend, hsights⟩ :=
                ih (fun g hg => hdraws g (List.mem_cons_of_mem _ hg)) hnext hs hs'
              exact ⟨hend, by rw [Hub.sights, Hub.sights, hsight, hsights]⟩
          · cases hs'
      · cases hs
  | @more e ids hother as bs hadds ih =>
      rw [EventRelay.play] at hs'
      split at hs'
      · exact ih hdraws (hr.more e hother) hs hs'
      · cases hs'

end Run.Alike

/-- **Messages to others do not interfere.** Let two runs go on from one point with the same
acts, but for more messages in the second, all to sessions other than the given one, and
let its id not be drawn for a new session. At the end the session is in both runs the same,
or gone, and its client has the same queue and the same stall clock, or there is none; the
same clients were admitted to it, and the same of them were told that it is over. On the
way each registration that presented it got it back with the same replay in both runs or in
neither, and its clients read the same. -/
theorem Run.isolated {past : List Occurrence} {h : Hub} (hrun : Run past h) {id : SessionId}
    {as bs : List Act} (hadds : Act.Adds id as bs)
    (hdraws : ∀ g, .register g ∈ as → .ok id ∉ g.draws) {past₁ past₂ : List Occurrence}
    {h₁ h₂ : Hub} (hfirst : EventRelay.play as (past, h) = some (past₁, h₁))
    (hsecond : EventRelay.play bs (past, h) = some (past₂, h₂)) :
    h₂.registry.find? id = h₁.registry.find? id ∧
    Table.get? h₂.clients id = Table.get? h₁.clients id ∧
    (∀ c : Client, c.session = id →
      (c ∈ handles past₂ ↔ c ∈ handles past₁) ∧
      (c ∈ handles past₁ → h₂.isClosed c = h₁.isClosed c)) ∧
    h.sights id bs = h.sights id as ∧ h₂.now = h₁.now := by
  obtain ⟨⟨hleft, hright, halike, hhandles⟩, hsights⟩ :=
    Run.Alike.play hadds hdraws ⟨hrun, hrun, ⟨rfl, rfl⟩, fun _ _ => Iff.rfl⟩ hfirst hsecond
  refine ⟨congrArg Place.session halike.place, congrArg Place.slot halike.place, ?_, hsights,
    congrArg Terms.now halike.terms⟩
  rintro c rfl
  refine ⟨hhandles c rfl, ?_⟩
  intro hc
  have hslot : Table.get? h₂.clients c.session = Table.get? h₁.clients c.session :=
    congrArg Place.slot halike.place
  have hclosed : c.id ∈ h₂.closed ↔ c.id ∈ h₁.closed := by
    rw [hright.sound.closed_iff c ((hhandles c rfl).mpr hc), hleft.sound.closed_iff c hc,
      Hub.Serves, Hub.Serves, hslot]
  rw [Hub.isClosed, Hub.isClosed, Bool.eq_iff_iff, List.contains_iff_mem, List.contains_iff_mem,
    hclosed]

/-- A client is let go and comes back, beside another. -/
def Act.visit : List Act :=
  [.release "S1" none, .dispatch ⟨⟨"A", "news", [], false⟩, .everyone⟩, .wait 6000,
    .register (.numbered 3 (some "S1") none []), .read ⟨⟨3⟩, "S1", true, 1⟩]

/-- The same, while the other client is sent so much that it is disconnected. -/
def Act.flood : List Act :=
  [.release "S1" none, .dispatch ⟨⟨"A", "news", [], false⟩, .everyone⟩, .wait 6000,
    .dispatch ⟨⟨"B", "news", [], false⟩, .sessions ["S2"]⟩,
    .register (.numbered 3 (some "S1") none []), .read ⟨⟨3⟩, "S1", true, 1⟩]

/-- Two clients, each with a queue that its greeting fills. -/
def Act.pair : List Act :=
  [.register (.numbered 1 none none [.ok "S1"]), .register (.numbered 2 none none [.ok "S2"])]

/-- The other client is lost in one run only, and the session and what is seen of it are the
same in both. -/
theorem isolated_from_flood : ∃ past h past₁ h₁ past₂ h₂, Run past h ∧
    play Act.visit (past, h) = some (past₁, h₁) ∧ play Act.flood (past, h) = some (past₂, h₂) ∧
    Table.get? h₁.clients "S2" ≠ none ∧ Table.get? h₂.clients "S2" = none ∧
    h₂.registry.find? "S1" = h₁.registry.find? "S1" ∧
    h.sights "S1" Act.flood = h.sights "S1" Act.visit := by
  have hadds : Act.Adds "S1" Act.visit Act.flood :=
    .same _ (.same _ (.same _ (.more _ (by decide) (.same _ (.same _ .nil)))))
  have hdraws : ∀ g, Act.register g ∈ Act.visit → .ok "S1" ∉ g.draws := by
    simp [Act.visit, Registration.numbered]
  have hplays : ((play Act.pair ([], Hub.opened { queueCapacity := 0 } {})).bind fun s =>
      (play Act.visit s).bind fun s₁ => (play Act.flood s).map fun s₂ =>
        ((Table.get? s₁.2.clients "S2").isSome, (Table.get? s₂.2.clients "S2").isSome))
      = some (true, false) := by decide +kernel
  obtain ⟨⟨past, h⟩, hpair, hplays⟩ := Option.bind_eq_some_iff.mp hplays
  obtain ⟨⟨past₁, h₁⟩, hvisit, hplays⟩ := Option.bind_eq_some_iff.mp hplays
  obtain ⟨⟨past₂, h₂⟩, hflood, hends⟩ := Option.map_eq_some_iff.mp hplays
  obtain ⟨hstays, hlost⟩ := Prod.mk.inj hends
  have hrun : Run past h := Run.play (Run.opened (by decide) {}) hpair
  obtain ⟨hsession, -, -, hsights, -⟩ := Run.isolated hrun hadds hdraws hvisit hflood
  exact ⟨past, h, past₁, h₁, past₂, h₂, hrun, hvisit, hflood, by
    rw [← Option.isSome_iff_ne_none]
    exact hstays, Option.isNone_iff_eq_none.mp (Option.isSome_eq_false_iff.mp hlost), hsession,
      hsights⟩

end EventRelay
