import EventRelay.Proofs.Faults

/-!
# Room for the replay

A new client's queue has room for its greeting, its replay and as many events as the settings
say. The greeting and the replay are delivered before anything else can be, so what is left for
live events is exactly what the settings say, however long the replay is.

`Slot.Takes` says what a queue holds that nobody reads: of all that was sent to it the first
events, as many as it has room for. It composes (`Takes.trans`), holds of a message
(`Place.Course.takes`) and of every other act (`Hub.Step.takes`), and so of any part of a run
(`Trail.takes`).
-/

namespace EventRelay

/-! ## A queue that nobody reads -/

namespace Slot

variable {s s' s'' : Slot} {es es' : List Event}

/-- Of the events that were sent to the client its queue took the first ones, as many as it had
room for, and lost none. -/
structure Takes (es : List Event) (s s' : Slot) : Prop where
  client : s'.client = s.client
  capacity : s'.channel.capacity = s.channel.capacity
  queue : s'.channel.queue = (s.channel.queue ++ es).take s.channel.capacity

/-- A queue to which nothing was sent is the same. -/
theorem Takes.nothing (hfits : s.Fits) (hclient : s'.client = s.client)
    (hcapacity : s'.channel.capacity = s.channel.capacity)
    (hqueue : s'.channel.queue = s.channel.queue) : Takes [] s s' :=
  ⟨hclient, hcapacity, by rw [List.append_nil, List.take_of_length_le hfits.held, hqueue]⟩

theorem Takes.refl (hfits : s.Fits) : Takes [] s s := .nothing hfits rfl rfl rfl

/-- What found no place among the first `n` has none afterwards. -/
theorem take_take_append {α : Type} (l r : List α) (n : Nat) :
    (l.take n ++ r).take n = (l ++ r).take n := by
  rw [List.take_append, List.take_append, List.take_take, Nat.min_self, List.length_take]
  congr 2
  omega

theorem Takes.trans (ht : Takes es s s') (ht' : Takes es' s' s'') : Takes (es ++ es') s s'' where
  client := ht'.client.trans ht.client
  capacity := ht'.capacity.trans ht.capacity
  queue := by
    rw [ht'.queue, ht.queue, ht.capacity, ← List.append_assoc]
    exact take_take_append ..

/-- An event that finds room is taken. -/
theorem takes_taking (hroom : s.channel.isFull = false) (e : Event) (now : Nat) :
    Takes [e] s (s.taking [e] now) := by
  have hlen : (s.channel.queue ++ [e]).length = s.channel.queue.length + 1 := List.length_append
  exact ⟨rfl, rfl, (List.take_of_length_le (hlen ▸ not_isFull_iff.mp hroom)).symm⟩

/-- An event that finds none is not. -/
theorem takes_stall (hfits : s.Fits) (hfull : s.channel.isFull = true) (e : Event) (now : Nat) :
    Takes [e] s (s.stall now) := by
  have hlen : s.channel.capacity = s.channel.queue.length :=
    Nat.le_antisymm (isFull_iff.mp hfull) hfits.held
  refine ⟨rfl, rfl, ?_⟩
  rw [hlen, List.take_left]
  rfl

end Slot

namespace Place

variable {keeps : Session → Session → Prop} {e : Event} {t : Terms} {p q : Place}
    {slot slot' : Slot}

/-- What is sent to a client that is there is delivered if there is room. -/
theorem fate_delivered_iff (hslot : p.slot = some slot) (hreads : slot.channel.attended = true) :
    p.fate t = .delivered ↔ slot.channel.queue.length < slot.channel.capacity := by
  rw [← Slot.not_isFull_iff, fate, hslot]
  cases hfull : slot.channel.isFull with
  | false => simp [hreads, hfull]
  | true => cases hlate : slot.stalledFor t.config.patience t.now <;> simp [hreads, hfull, hlate]

/-- A client that keeps its session through a message has taken its copies, as far as there was
room. -/
theorem Course.takes {fs : List Fate} (hc : Course keeps e t fs p q) (hslot' : q.slot = some slot')
    (hfits : ∀ slot, p.slot = some slot → slot.Fits) :
    ∃ slot, p.slot = some slot ∧ Slot.Takes (List.replicate fs.length e) slot slot' := by
  induction hc with
  | nil p => exact ⟨slot', hslot', .refl (hfits slot' hslot')⟩
  | @cons f fs p q r hmeets hcourse ih =>
      rw [List.length_cons, List.replicate_succ]
      cases hmeets with
      | kept =>
          obtain ⟨slot, hslot, -⟩ := ih hslot' nofun
          cases hslot
      | @delivered s slot hactive hreads hroom =>
          have hfit := hfits slot rfl
          obtain ⟨slot₁, hslot₁, htakes⟩ := ih hslot' fun slot₁ hslot₁ =>
            Option.some.inj hslot₁ ▸ (Slot.becomes_taking hfit hroom e t.now).fits
          obtain rfl := Option.some.inj hslot₁
          exact ⟨slot, rfl, (Slot.takes_taking hroom e t.now).trans htakes⟩
      | @dropped s slot hactive hreads hfull hearly =>
          have hfit := hfits slot rfl
          obtain ⟨slot₁, hslot₁, htakes⟩ := ih hslot' fun slot₁ hslot₁ =>
            Option.some.inj hslot₁ ▸ ⟨hfit.room, hfit.held⟩
          obtain rfl := Option.some.inj hslot₁
          exact ⟨slot, rfl, (Slot.takes_stall hfit hfull e t.now).trans htakes⟩
      | handedOver =>
          obtain ⟨slot, hslot, -⟩ := ih hslot' nofun
          cases hslot

end Place

namespace Hub

variable {h : Hub} {c : Client} {a : Act} {o : Outcome} {q : Place} {slot' : Slot}

/-- A connection is opened if its queue is not too large. -/
theorem openClient_ok_iff {g : Registration} {id : SessionId} {reconnects : Option Nat}
    {replay : List Event} : (∃ c, (h.openClient g id reconnects replay).2 = .ok c) ↔
      h.config.queueCapacity + replay.length + 1 ≤ Limits.maxQueue := by
  constructor
  · rintro ⟨c, hok⟩
    exact openClient_fits.mp fun f hfault => by cases hok.symm.trans hfault
  · intro hfits
    have hword : Limits.maxQueue < Limits.maxWord := by decide
    unfold openClient
    rw [if_neg (by omega), if_neg (by omega)]
    exact ⟨_, rfl⟩

/-- Whoever is admitted has the queue that was opened for the session's replay, and keeps it if
the caller is still there. -/
theorem Sound.accepted {hs : List Client} (hS : h.Sound hs) {g : Registration}
    (hok : (h.accept g).2 = .ok c) : ∃ s, (h.accept g).1.place c.session
        = ⟨some s, some (h.opening g c.session c.reconnected s.replay)⟩ ∧
      (h.register g).1.place c.session
        = Place.answer ⟨some s, some (h.opening g c.session c.reconnected s.replay)⟩ g h.terms ∧
      c.id = g.client ∧ c.replayed = s.replay.length := by
  have hadm := accept_cases h g (fun _ => hS.free) fun f hfault => by cases hok.symm.trans hfault
  have hterms : (h.accept g).1.terms = h.terms := hadm.terms
  obtain ⟨s, hplace, hname, hcount⟩ : ∃ s, (h.accept g).1.place c.session
        = ⟨some s, some (h.opening g c.session c.reconnected s.replay)⟩ ∧
      c.id = g.client ∧ c.replayed = s.replay.length := by
    generalize h.accept g = admitted at hadm hok
    cases hadm with
    | refused => cases hok
    | reclaimed hclaim hs hin =>
        obtain rfl := Except.ok.inj hok
        exact ⟨_, (hin.place _).trans (if_pos rfl), rfl, rfl⟩
    | created hclaim hs hin =>
        obtain rfl := Except.ok.inj hok
        exact ⟨_, (hin.place _).trans (if_pos rfl), rfl, rfl⟩
  have hanswer := (register_ok (Prod.ext rfl hok) (congrArg Place.slot hplace) hname.symm
    c.session).2
  rw [if_pos rfl, hplace, hterms] at hanswer
  exact ⟨s, hplace, hanswer, hname, hcount⟩

/-- A new queue takes as many live events as the settings say. -/
theorem takes_opening {g : Registration} {id : SessionId} {reconnected : Bool}
    {replay es : List Event} (ht : Slot.Takes es (h.opening g id reconnected replay) slot') :
    slot'.channel.queue = Event.connected g.greeting id reconnected replay.length :: replay ++
      es.take h.config.queueCapacity := by
  have hlen : (Event.connected g.greeting id reconnected replay.length :: replay).length
      = replay.length + 1 := rfl
  rw [ht.queue]
  show List.take (h.config.queueCapacity + replay.length + 1) (_ :: replay ++ es) = _
  rw [List.take_append, List.take_of_length_le (by rw [hlen]; omega), hlen]
  congr 2
  omega

/-- Whoever keeps a session through a message has taken as many copies as there was room for. -/
theorem Sound.takes_dispatch {hs : List Client} (hS : h.Sound hs) {m : Message} {id : SessionId}
    (hslot' : ((h.dispatch m).place id).slot = some slot')
    (hfits : ∀ slot, (h.place id).slot = some slot → slot.Fits) :
    ∃ slot, (h.place id).slot = some slot ∧
      Slot.Takes (List.replicate (m.scope.copies id) m.event) slot slot' := by
  cases hs : h.registry.find? id with
  | none =>
      rw [hS.dispatch_absent m hs] at hslot'
      cases (hS.free hs).symm.trans hslot'
  | some s =>
      obtain ⟨fs, hlen, hcourse⟩ := hS.course_dispatch m hs
      rw [← hlen]
      exact hcourse.takes hslot' hfits

/-- An act that is no message and in which the client reads nothing leaves its queue alone. -/
theorem Step.takes (hstep : h.Step c.session a o q) (hnew : ∀ g, a = .register g → g.client ≠ c.id)
    (hmessage : ∀ m, a ≠ .dispatch m) (hunread : Occurrence.readBy? ⟨a, o⟩ c = none)
    (hfits : ∀ slot, (h.place c.session).slot = some slot → slot.Fits)
    (hslot' : q.slot = some slot') (hclient : slot'.client = c.id) :
    ∃ slot, (h.place c.session).slot = some slot ∧ Slot.Takes [] slot slot' := by
  have harrived : ∀ {s : Session} {g : Registration} {reconnected : Bool} {replay : List Event},
      g.client ≠ c.id →
      (Place.answer ⟨some s, some (h.opening g c.session reconnected replay)⟩ g h.terms).slot
        ≠ some slot' := by
    intro s g reconnected replay hne hanswer
    obtain rfl := Option.some.inj (Place.answer_slot hanswer)
    exact hne hclient
  have hsame : (h.place c.session).slot = some slot' →
      ∃ slot, (h.place c.session).slot = some slot ∧ Slot.Takes [] slot slot' :=
    fun hslot => ⟨slot', hslot, .refl (hfits slot' hslot)⟩
  cases hstep with
  | aside hadmits hreads => exact hsame hslot'
  | reclaimed hclaim hs => exact absurd hslot' (harrived (hnew _ rfl))
  | created hclaim hs => exact absurd hslot' (harrived (hnew _ rfl))
  | dispatched => exact absurd rfl (hmessage _)
  | inspected =>
      unfold Place.inspect Place.judge at hslot'
      split at hslot'
      · exact hsame hslot'
      · next slot hslot =>
          split at hslot'
          · rw [Place.vacate_slot] at hslot'
            cases hslot'
          · obtain rfl := Option.some.inj hslot'
            have hchannel := Place.check_channel slot h.terms.config.patience h.terms.now
            exact ⟨slot, hslot, .nothing (hfits slot hslot) (check_client slot _ _)
              (congrArg Channel.capacity hchannel) (congrArg Channel.queue hchannel)⟩
  | @read c' hc =>
      unfold Place.read at hslot'
      split at hslot'
      · exact hsame hslot'
      · next slot hfound =>
          split at hslot'
          · exact hsame hslot'
          · next e rest hqueue =>
              obtain rfl := Option.some.inj hslot'
              obtain ⟨-, hname⟩ := Option.filter_eq_some_iff.mp hfound
              have hid : c'.id = c.id := (beq_iff_eq.mp hname).symm.trans hclient
              have hreading : (h.place c.session).reading c'.id = .event e := by
                simp only [Place.reading, hfound, hqueue]
              rw [hreading] at hunread
              simp [Occurrence.readBy?, hc, hid] at hunread
  | @left c' hc =>
      unfold Place.leave at hslot'
      split at hslot'
      · exact hsame hslot'
      · next slot hfound =>
          obtain rfl := Option.some.inj hslot'
          have hslot := (Option.filter_eq_some_iff.mp hfound).1
          exact ⟨slot, hslot, .nothing (hfits slot hslot) rfl rfl rfl⟩
  | released hslot hname =>
      rw [Place.vacate_slot] at hslot'
      cases hslot'
  | stopped =>
      rw [Place.vacate_slot] at hslot'
      cases hslot'
  | swept => exact hsame hslot'
  | looked => exact hsame hslot'

end Hub

/-! ## Since a moment -/

namespace Trail

variable {past later earlier : List Moment} {x : Moment} {h : Hub} {c : Client} {g : Registration}

/-- As long as a client holds its session and reads nothing, its queue is what it was at some
moment and the first events that were sent since, as many as there was room for. -/
theorem takes (htrail : Trail (later ++ x :: earlier) h)
    (hc : c ∈ handles ((x :: earlier).map Moment.occurrence))
    (hunread : readBy c (later.map Moment.occurrence) = []) {slot' : Slot}
    (hslot' : (h.place c.session).slot = some slot') (hclient : slot'.client = c.id) :
    ∃ slot, (x.after.place c.session).slot = some slot ∧
      Slot.Takes (addressed c.session (later.map Moment.occurrence)) slot slot' := by
  refine htrail.since (P := fun later h => readBy c (later.map Moment.occurrence) = [] →
    ∀ slot', (h.place c.session).slot = some slot' → slot'.client = c.id →
      ∃ slot, (x.after.place c.session).slot = some slot ∧
        Slot.Takes (addressed c.session (later.map Moment.occurrence)) slot slot')
    ?_ ?_ ?_ hunread slot' hslot' hclient
  · intro _ slot' hslot' _
    exact ⟨slot', hslot', .refl (htrail.cut.marked hslot').1⟩
  · intro y later hy ih hunread slot' hslot' hclient
    obtain ⟨hunread, hlast⟩ := List.append_eq_nil_iff.mp hunread
    have hbefore := hy.uncons.1
    have hfits : ∀ slot, (y.before.place c.session).slot = some slot → slot.Fits :=
      fun slot hslot => (hbefore.marked hslot).1
    have hstep := hy.step_last c.session
    have hone : ∃ slot, (y.before.place c.session).slot = some slot ∧
        Slot.Takes (y.occurrence.sentTo c.session) slot slot' := by
      by_cases hmessage : ∃ m, y.act = .dispatch m
      · obtain ⟨m, hact⟩ := hmessage
        obtain ⟨a, before⟩ := y
        obtain rfl : a = .dispatch m := hact
        exact hbefore.sound.takes_dispatch hslot' hfits
      · have hnothing : y.occurrence.sentTo c.session = [] := by
          obtain ⟨a, before⟩ := y
          cases a with
          | dispatch m => exact absurd ⟨m, rfl⟩ hmessage
          | _ => rfl
        rw [hnothing]
        exact hstep.takes (hy.client_ne (handles_append _ hc)) (fun m hact => hmessage ⟨m, hact⟩)
          (Option.toList_eq_nil_iff.mp hlast) hfits hslot' hclient
    obtain ⟨slot₁, hslot₁, htakes₁⟩ := hone
    obtain ⟨slot, hslot, htakes⟩ := ih hunread slot₁ hslot₁ (htakes₁.client.symm.trans hclient)
    exact ⟨slot, hslot, htakes.trans htakes₁⟩
  · intro later h h' hu ih hunread slot' hslot' hclient
    exact ih hunread slot' (hu.place c.session ▸ hslot') hclient

/-- Who is admitted has the queue that was opened for what the connection carries, and no other
while its session is its own. -/
theorem accepts (htrail : Trail (later ++ x :: earlier) h) (hact : x.act = .register g)
    (hout : x.outcome = .admitted c) : ∃ s : Session,
      Carries x g c [] (Event.connected g.greeting c.session c.reconnected s.replay.length) s.replay
        [] ∧
      Table.get? (x.before.accept g).1.clients c.session
        = some (x.before.opening g c.session c.reconnected s.replay) ∧
      c.id = g.client ∧ ∀ slot, (x.after.place c.session).slot = some slot →
        slot = x.before.opening g c.session c.reconnected s.replay := by
  have hok : (x.before.accept g).2 = .ok c := by
    rw [Moment.outcome, hact] at hout
    rw [← Hub.register_answer]
    exact Outcome.ok_of_admitted hout
  obtain ⟨s, hplace, hanswer, hname, hcount⟩ := htrail.before.sound.accepted hok
  have hafter : x.after.place c.session
      = Place.answer ⟨some s, some (x.before.opening g c.session c.reconnected s.replay)⟩ g
        x.before.terms := by
    rw [Moment.after, hact]
    exact hanswer
  obtain ⟨greeting, replay, hcarries, -⟩ := htrail.carries_start hact hout
  have hgreeting :
      greeting = Event.connected g.greeting c.session c.reconnected s.replay.length := by
    rw [hcarries.opening, hcount]
    rfl
  have hreplay : replay = s.replay := by
    obtain ⟨s', hs', hbuffer, -⟩ := hcarries.buffered
    obtain ⟨s'', hs'', hsame⟩ := Place.answer_session s
      (some (x.before.opening g c.session c.reconnected s.replay)) g x.before.terms
    have heq : s' = s'' :=
      Option.some.inj (hs'.symm.trans ((congrArg Place.session hafter).trans hs''))
    rw [hbuffer, heq]
    rcases hsame with rfl | rfl <;> rfl
  subst hgreeting hreplay
  refine ⟨s, hcarries, congrArg Place.slot hplace, hname, ?_⟩
  intro slot hslot
  rw [hafter] at hslot
  exact (Option.some.inj (Place.answer_slot hslot)).symm

/-- **No replay is lost to a full queue.** A connection with a replay of any length is opened if
a queue of that size can be had. When a client is admitted, its greeting and its replay are
delivered to it in order, every one of them; its stall clock runs from then on exactly if the
settings leave no room for more. And while it reads nothing, its queue takes just as many events
more as the settings say: the first ones, and the next one only if they were fewer. -/
theorem admits_whole_replay (htrail : Trail (later ++ x :: earlier) h) (hact : x.act = .register g)
    (hout : x.outcome = .admitted c) :
    (∀ g' id reconnects replay, (∃ c', (x.before.openClient g' id reconnects replay).2 = .ok c') ↔
      x.before.config.queueCapacity + replay.length + 1 ≤ Limits.maxQueue) ∧
    ∃ greeting replay slot, Carries x g c [] greeting replay [] ∧
      Slot.offers x.before.config.patience x.time (greeting :: replay)
          { client := c.id,
            channel := { capacity := x.before.config.queueCapacity + c.replayed + 1 } }
        = (slot, List.replicate (c.replayed + 1) .delivered) ∧
      slot.channel.queue = greeting :: replay ∧
      Table.get? (x.before.accept g).1.clients c.session = some slot ∧
      (slot.stalledSince.isSome = true ↔ x.before.config.queueCapacity = 0) ∧
      (readBy c (later.map Moment.occurrence) = [] → ∀ slot',
        Table.get? h.clients c.session = some slot' → slot'.client = c.id →
          slot'.channel.queue = greeting :: replay ++
            (addressed c.session (later.map Moment.occurrence)).take x.before.config.queueCapacity ∧
          (slot'.channel.attended = true → ((h.place c.session).fate h.terms = .delivered ↔
            (addressed c.session (later.map Moment.occurrence)).length
              < x.before.config.queueCapacity))) := by
  obtain ⟨s, hcarries, hslot, hname, hkept⟩ := htrail.accepts hact hout
  refine ⟨fun g' id reconnects replay => Hub.openClient_ok_iff, _, s.replay,
    x.before.opening g c.session c.reconnected s.replay, hcarries, ?_, rfl, hslot, ?_, ?_⟩
  · rw [hname, ← hcarries.count]
    exact x.before.offers_opening g c.session c.reconnected s.replay
  · rw [Hub.opening]
    split <;> simp [*]
  · intro hunread slot' hslot' hclient
    obtain ⟨slot, hfirst, htakes⟩ := htrail.takes (handles_admitted hout) hunread hslot' hclient
    obtain rfl := hkept slot hfirst
    have hqueue := Hub.takes_opening htakes
    refine ⟨hqueue, fun hreads => ?_⟩
    rw [Place.fate_delivered_iff hslot' hreads, hqueue, htakes.capacity, List.length_append,
      List.length_take]
    show s.replay.length + 1 + _ < x.before.config.queueCapacity + s.replay.length + 1 ↔ _
    omega

/-- A client whose queue has one place besides its greeting and its replay of two events is sent
two more and reads nothing: it gets the first one. -/
theorem whole_replay_admitted : ∃ later x earlier h c slot', Trail (later ++ x :: earlier) h ∧
    x.outcome = .admitted c ∧ c.replayed = 2 ∧
    (addressed "S1" (later.map Moment.occurrence)).map (·.id) = ["C", "D"] ∧
    Table.get? h.clients "S1" = some slot' ∧ slot'.channel.queue.length = 4 ∧
    (h.place "S1").fate h.terms ≠ .delivered := by
  let c : Client := ⟨⟨2⟩, "S1", true, 2⟩
  let send (id : EventId) := Act.dispatch ⟨⟨id, "news", [], false⟩, .everyone⟩
  have hleft := ((((opened { queueCapacity := 1 } {} (by decide)).step
    (.register (.numbered 1 none none [.ok "S1"])) (by decide +kernel) (by decide +kernel)).step
    (.release "S1" none) trivial rfl).step (send "A") trivial rfl).step (send "B") trivial rfl
  have htrail := ((hleft.step (.register (.numbered 2 (some "S1") none [])) (by decide +kernel)
    (by decide +kernel)).step (send "C") trivial rfl).step (send "D") trivial rfl
  obtain ⟨later, x, earlier, h, htrail, hact, hout, hroom, hunread, hsent, hthere⟩ :
      ∃ later x earlier h, Trail (later ++ x :: earlier) h ∧
        x.act = .register (.numbered 2 (some "S1") none []) ∧ x.outcome = .admitted c ∧
        x.before.config.queueCapacity = 1 ∧ readBy c (later.map Moment.occurrence) = [] ∧
        (addressed "S1" (later.map Moment.occurrence)).map (·.id) = ["C", "D"] ∧
        (Table.get? h.clients "S1").any (fun slot => slot.client == ⟨2⟩ && slot.channel.attended)
          = true :=
    ⟨[_, _], _, _, _, htrail, rfl, Moment.handle?_eq_some.mp (by decide +kernel), rfl,
      by decide +kernel, by decide +kernel, by decide +kernel⟩
  have hsent' : (addressed "S1" (later.map Moment.occurrence)).length = 2 := by
    simpa using congrArg List.length hsent
  obtain ⟨slot', hslot', hslot⟩ := (Option.any_eq_true _ _).mp hthere
  obtain ⟨hclient, hreads⟩ := Bool.and_eq_true_iff.mp hslot
  obtain ⟨-, greeting, replay, -, hcarries, -, -, -, -, hlater⟩ :=
    admits_whole_replay htrail hact hout
  obtain ⟨hqueue, hfate⟩ := hlater hunread slot' hslot' (beq_iff_eq.mp hclient)
  have hcount : replay.length = 2 := hcarries.count
  refine ⟨later, x, earlier, h, c, slot', htrail, hout, rfl, hsent, hslot', ?_, ?_⟩
  · rw [hqueue, hroom, List.length_append, List.length_cons, List.length_take, hcount, hsent']
    rfl
  · rw [Ne, hfate hreads, hroom, hsent']
    decide

end Trail

end EventRelay
