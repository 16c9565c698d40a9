import EventRelay.Proofs.Tracked
import EventRelay.Proofs.Trail

/-!
# What one connection carries

The events that a client can read are those of its queue, and a queue loses nothing but
what is read: at every act, what was in it and what came in is what was read and what is
left (`Hub.Step.conserves`). A new connection begins with the greeting and the replay, so
what is read from it is a prefix of these two and of what was sent since
(`Trail.stream`). A connection that is over is over for good (`Trail.closed_since`).
-/

namespace EventRelay

/-- The scope has the session in it. -/
def Scope.covers (scope : Scope) (id : SessionId) : Bool :=
  match scope with
  | .everyone => true
  | .live => true
  | .sessions ids => ids.contains id

theorem Scope.covers_iff (scope : Scope) (id : SessionId) :
    scope.covers id = true ↔ 0 < scope.copies id := by
  cases scope with
  | everyone => simp [covers, copies]
  | live => simp [covers, copies]
  | sessions ids => simp [covers, copies, List.count_pos_iff]

namespace Occurrence

variable (o : Occurrence)

/-- What was sent to the session here, once for each time that it is named. -/
def sentTo (id : SessionId) : List Event :=
  match o.act with
  | .dispatch m => List.replicate (m.scope.copies id) m.event
  | _ => []

/-- The event that was read here through the handle. -/
def readBy? (c : Client) : Option Event :=
  match o.act, o.outcome with
  | .read c', .reading (.event e) => if c'.session = c.session ∧ c'.id = c.id then some e else none
  | _, _ => none

end Occurrence

/-- What was sent to a session, in order, once for each time that it is named. -/
def addressed (id : SessionId) : List Occurrence → List Event
  | [] => []
  | o :: past => addressed id past ++ o.sentTo id

/-- The events of the messages that have the session in their scope, in order. -/
def covering (id : SessionId) (past : List Occurrence) : List Event :=
  ((sent past).reverse.filter fun m => m.scope.covers id).map (·.event)

/-- The events read through a handle, in order. -/
def readBy (c : Client) : List Occurrence → List Event
  | [] => []
  | o :: past => readBy c past ++ (o.readBy? c).toList

theorem sent_cons (o : Occurrence) (past : List Occurrence) :
    sent (o :: past) = o.message?.toList ++ sent past := by
  rw [sent, List.filterMap_cons, sent]
  cases o.message? <;> rfl

/-- A message that names no session twice reaches every session in its scope once. -/
theorem addressed_eq_covering {id : SessionId} {past : List Occurrence}
    (honce : ∀ m ∈ sent past, m.scope.copies id ≤ 1) : addressed id past = covering id past := by
  induction past with
  | nil => rfl
  | cons o past ih =>
      have ih' := ih fun m hm => honce m (mem_sent_cons hm)
      rw [addressed, ih', covering, covering, sent_cons, List.reverse_append, List.filter_append,
        List.map_append]
      congr 1
      obtain ⟨a, outcome⟩ := o
      cases a with
      | dispatch m =>
          have hle : m.scope.copies id ≤ 1 := honce m (by simp [sent_cons, Occurrence.message?])
          have hcovers := m.scope.covers_iff id
          rcases Nat.le_one_iff_eq_zero_or_eq_one.mp hle with hzero | hone
          · simp [Occurrence.sentTo, Occurrence.message?, hzero, hcovers]
          · simp [Occurrence.sentTo, Occurrence.message?, hone, hcovers]
      | _ => rfl

theorem mem_addressed {id : SessionId} {past : List Occurrence} {e : Event}
    (he : e ∈ addressed id past) : ∃ m ∈ sent past, m.event = e := by
  induction past with
  | nil => cases he
  | cons o past ih =>
      rcases List.mem_append.mp he with he | he
      · obtain ⟨m, hm, hevent⟩ := ih he
        exact ⟨m, mem_sent_cons hm, hevent⟩
      · obtain ⟨a, outcome⟩ := o
        cases a with
        | dispatch m =>
            exact ⟨m, by simp [sent_cons, Occurrence.message?], (List.eq_of_mem_replicate he).symm⟩
        | _ => cases he

/-! ## The queue of one client -/

namespace Place

variable {keeps : Session → Session → Prop} {e : Event} {t : Terms} {p q : Place} {k : ClientId}

/-- The events on their way to the given client, while it holds the session. -/
def queueOf (p : Place) (k : ClientId) : Option (List Event) :=
  (p.slot.filter (·.client == k)).map (·.channel.queue)

theorem queueOf_eq_some {es : List Event} : p.queueOf k = some es ↔
    ∃ slot, p.slot = some slot ∧ slot.client = k ∧ slot.channel.queue = es := by
  simp only [queueOf, Option.map_eq_some_iff, Option.filter_eq_some_iff, beq_iff_eq, and_assoc]

theorem queueOf_eq_none : p.queueOf k = none ↔ ∀ slot, p.slot = some slot → slot.client ≠ k := by
  simp only [queueOf, Option.map_eq_none_iff, Option.filter_eq_none_iff, beq_iff_eq]

theorem queueOf_of_slot {slot : Slot} (hslot : p.slot = some slot) :
    p.queueOf k = if slot.client = k then some slot.channel.queue else none := by
  rw [queueOf, hslot]
  by_cases hk : slot.client = k <;> simp [hk]

theorem reading_eq (p : Place) (k : ClientId) : p.reading k = match p.queueOf k with
    | none => .closed
    | some [] => .pending
    | some (e :: _) => .event e := by
  unfold reading queueOf
  cases p.slot.filter (·.client == k) with
  | none => rfl
  | some slot => cases hqueue : slot.channel.queue <;> simp only [hqueue, Option.map_some]

theorem queueOf_vacate (p : Place) (t : Terms) (k : ClientId) : (p.vacate t).queueOf k = none := by
  obtain ⟨session, slot⟩ := p
  cases slot <;> rfl

theorem queueOf_inspect {es : List Event} (hes : (p.inspect t).queueOf k = some es) :
    p.queueOf k = some es := by
  unfold inspect judge at hes
  split at hes
  · exact hes
  · next slot hslot =>
      split at hes
      · rw [queueOf_vacate] at hes
        cases hes
      · obtain ⟨slot', hslot', hclient, hqueue⟩ := queueOf_eq_some.mp hes
        obtain rfl := Option.some.inj hslot'
        rw [Hub.check_client] at hclient
        rw [check_channel] at hqueue
        exact queueOf_eq_some.mpr ⟨slot, hslot, hclient, hqueue⟩

theorem queueOf_leave (p : Place) (c k : ClientId) : (p.leave c).queueOf k = p.queueOf k := by
  unfold leave
  split
  · rfl
  · next slot hslot =>
      obtain ⟨hsome, -⟩ := Option.filter_eq_some_iff.mp hslot
      rw [queueOf_of_slot hsome, queueOf_of_slot rfl]

/-- What is read is the first event of the reader's queue. -/
theorem queueOf_read (p : Place) (c k : ClientId) :
    (p.read c).queueOf k = if c = k then (p.queueOf k).map List.tail else p.queueOf k := by
  unfold read
  split
  · next hnone =>
      split
      · next hc =>
          subst hc
          rw [queueOf, hnone]
          rfl
      · rfl
  · next slot hslot =>
      obtain ⟨hsome, hclient⟩ := Option.filter_eq_some_iff.mp hslot
      rw [beq_iff_eq] at hclient
      subst hclient
      rw [queueOf_of_slot hsome]
      split
      · next hqueue =>
          rw [queueOf_of_slot hsome, hqueue]
          split <;> rfl
      · next e rest hqueue =>
          rw [queueOf_of_slot rfl, hqueue]
          split <;> rfl

/-- A client that keeps its session through some fates got at most one event for each. -/
theorem Course.queueOf {fs : List Fate} (hc : Course keeps e t fs p q) {es' : List Event}
    (hes : q.queueOf k = some es') :
    ∃ es n, p.queueOf k = some es ∧ n ≤ fs.length ∧ es' = es ++ List.replicate n e := by
  induction hc with
  | nil p => exact ⟨es', 0, hes, Nat.le_refl 0, by simp⟩
  | @cons f fs p q r hmeets hcourse ih =>
      obtain ⟨es, n, hq, hle, rfl⟩ := ih hes
      obtain ⟨slot, hslot, hclient, rfl⟩ := queueOf_eq_some.mp hq
      cases hmeets with
      | kept => cases hslot
      | @delivered s slot hactive hreads hroom =>
          obtain rfl := Option.some.inj hslot
          refine ⟨slot.channel.queue, n + 1, queueOf_eq_some.mpr ⟨slot, rfl, hclient, rfl⟩,
            Nat.succ_le_succ hle, ?_⟩
          rw [List.replicate_succ, List.append_cons]
          rfl
      | @dropped s slot hactive hreads hfull hearly =>
          obtain rfl := Option.some.inj hslot
          exact ⟨slot.channel.queue, n, queueOf_eq_some.mpr ⟨slot, rfl, hclient, rfl⟩,
            Nat.le_succ_of_le hle, rfl⟩
      | handedOver => cases hslot

end Place

/-! ## Nothing gets lost in a queue -/

namespace Hub

variable {h : Hub} {c : Client} {a : Act} {o : Outcome} {q : Place}

/-- Of a queue that is still there after an act: what was in it and what came in is what
was read and what is left. -/
theorem Step.conserves (hstep : h.Step c.session a o q)
    (hnew : ∀ g, a = .register g → g.client ≠ c.id) {es' : List Event}
    (hes : q.queueOf c.id = some es') : ∃ es live, (h.place c.session).queueOf c.id = some es ∧
      List.Sublist live (Occurrence.sentTo ⟨a, o⟩ c.session) ∧
      es ++ live = (Occurrence.readBy? ⟨a, o⟩ c).toList ++ es' := by
  have hstays : ∀ {es}, (h.place c.session).queueOf c.id = some es →
      Occurrence.readBy? ⟨a, o⟩ c = none → ∃ es₀ live,
        (h.place c.session).queueOf c.id = some es₀ ∧
        List.Sublist live (Occurrence.sentTo ⟨a, o⟩ c.session) ∧
        es₀ ++ live = (Occurrence.readBy? ⟨a, o⟩ c).toList ++ es :=
    fun hqueue hnone => ⟨_, [], hqueue, List.nil_sublist _, by simp [hnone]⟩
  have harrived : ∀ {s : Session} {g : Registration} {reconnected : Bool} {replay : List Event},
      g.client ≠ c.id → (Place.answer ⟨some s, some (h.opening g c.session reconnected replay)⟩ g
        h.terms).queueOf c.id = none := by
    intro s g reconnected replay hne
    exact Place.queueOf_eq_none.mpr fun slot hslot =>
      Option.some.inj (Place.answer_slot hslot) ▸ hne
  cases hstep with
  | aside hadmits hreads =>
      refine hstays hes ?_
      cases a with
      | read c' =>
          have hne := hreads c' rfl
          cases o with
          | reading r => cases r <;> simp [Occurrence.readBy?, hne]
          | _ => rfl
      | _ => rfl
  | reclaimed hclaim hs => simp [harrived (hnew _ rfl)] at hes
  | created hclaim hs => simp [harrived (hnew _ rfl)] at hes
  | @dispatched m s fs q hs hlen hcourse =>
      obtain ⟨es, n, hqueue, hle, rfl⟩ := hcourse.queueOf hes
      refine ⟨es, List.replicate n m.event, hqueue, ?_, rfl⟩
      exact (List.replicate_sublist_replicate _).mpr (hlen ▸ hle)
  | inspected => exact hstays (Place.queueOf_inspect hes) rfl
  | @read c' hc =>
      rw [Place.queueOf_read] at hes
      by_cases hid : c'.id = c.id
      · rw [if_pos hid] at hes
        obtain ⟨es, hqueue, rfl⟩ := Option.map_eq_some_iff.mp hes
        refine ⟨es, [], hqueue, List.nil_sublist _, ?_⟩
        rw [List.append_nil, Place.reading_eq, hid, hqueue]
        cases es with
        | nil => rfl
        | cons e rest => simp [Occurrence.readBy?, hc, hid]
      · rw [if_neg hid] at hes
        refine hstays hes ?_
        cases hr : (h.place c.session).reading c'.id <;> simp [Occurrence.readBy?, hid]
  | left hc =>
      rw [Place.queueOf_leave] at hes
      exact hstays hes rfl
  | released hslot hclient => simp [Place.queueOf_vacate] at hes
  | stopped => simp [Place.queueOf_vacate] at hes
  | swept => exact hstays hes rfl
  | looked => exact hstays hes rfl

/-- A client that reads an event keeps its queue. -/
theorem Step.read_keeps (hstep : h.Step c.session a o q) {e : Event}
    (he : Occurrence.readBy? ⟨a, o⟩ c = some e) : ∃ es', q.queueOf c.id = some es' := by
  cases hstep with
  | aside hadmits hreads =>
      cases a with
      | read c' =>
          have hne := hreads c' rfl
          cases o with
          | reading r => cases r <;> simp [Occurrence.readBy?, hne] at he
          | _ => cases he
      | _ => cases he
  | @read c' hc =>
      by_cases hid : c'.id = c.id
      · rw [Place.reading_eq, hid] at he
        rw [Place.queueOf_read, if_pos hid]
        cases hqueue : (h.place c.session).queueOf c.id with
        | none => simp [hqueue, Occurrence.readBy?] at he
        | some es => exact ⟨es.tail, rfl⟩
      · cases hr : (h.place c.session).reading c'.id <;> simp [Occurrence.readBy?, hid, hr] at he
  | _ => cases he

theorem Sound.mem_closed_iff {hs : List Client} (hS : h.Sound hs) (hc : c ∈ hs) :
    c.id ∈ h.closed ↔ (h.place c.session).queueOf c.id = none := by
  rw [hS.closed_iff c hc, Place.queueOf_eq_none, Serves]
  constructor
  · intro hno slot hslot hclient
    exact hno ⟨slot, hslot, hclient⟩
  · rintro hno ⟨slot, hslot, hclient⟩
    exact hno slot hslot hclient

end Hub

/-! ## What is read from a connection -/

/-- What the connection carries that was admitted at the moment `x`: its greeting, the
buffer of its session as a replay, and live events out of those sent `later`. -/
structure Carries (x : Moment) (g : Registration) (c : Client) (later : List Occurrence)
    (greeting : Event) (replay live : List Event) : Prop where
  opening : greeting =
    { id := g.greeting
      type := "connected"
      payload := Utf8.encode (Json.obj [("session_id", .str c.session),
        ("reconnected", .bool c.reconnected), ("replayed", .int c.replayed)]).compact
      replayed := false }
  count : replay.length = c.replayed
  flagged : ∀ e ∈ replay, e.replayed = true
  buffered : ∃ s, x.after.registry.find? c.session = some s ∧ replay = s.missed.map Event.asReplay ∧
    (c.reconnected = true → ∃ s₀, x.before.registry.find? c.session = some s₀ ∧
      s.missed = s₀.missed.drop (s₀.acknowledgedBy g.lastEventId)) ∧
    (c.reconnected = false → s.missed = [])
  sent : List.Sublist live (addressed c.session later)

/-- A connection begins with its greeting and the replay. -/
theorem Trail.carries_start {later earlier : List Moment} {x : Moment} {h : Hub}
    (htrail : Trail (later ++ x :: earlier) h) {g : Registration} {c : Client}
    (hact : x.act = .register g) (hout : x.outcome = .admitted c) :
    ∃ greeting replay, Carries x g c [] greeting replay [] ∧
      ∀ es, (x.after.place c.session).queueOf c.id = some es → es = greeting :: replay := by
  have hS := htrail.before.sound
  obtain ⟨s, hplace, hname, hcount, hwhence⟩ := htrail.cut.admitted hact hout
  obtain ⟨s', hs', hsame⟩ := Place.answer_session s
    (some (x.before.opening g c.session c.reconnected s.replay)) g x.before.terms
  have hmissed : s'.missed = s.missed := by rcases hsame with rfl | rfl <;> rfl
  have hafter : x.after.registry.find? c.session = some s' :=
    (congrArg Place.session hplace).trans hs'
  refine ⟨_, s.replay, ⟨rfl, hcount.symm, ?_, ⟨s', hafter, by rw [hmissed]; rfl, ?_, ?_⟩,
    List.Sublist.refl _⟩, ?_⟩
  · intro e he
    obtain ⟨e', -, rfl⟩ := List.mem_map.mp he
    rfl
  · intro hback
    rcases hwhence with ⟨-, -, s₀, hs₀, rfl⟩ | ⟨hnew, -⟩
    · exact ⟨s₀, hs₀, hmissed.trans (((hS.place c.session).wf s₀ hs₀).1.missed_reclaim _ _)⟩
    · cases hnew.symm.trans hback
  · intro hnew
    rcases hwhence with ⟨hback, -⟩ | ⟨-, -, -, rfl⟩
    · cases hnew.symm.trans hback
    · exact hmissed
  · intro es hes
    rw [hplace, Place.answer] at hes
    split at hes
    · rw [Place.queueOf_vacate] at hes
      cases hes
    · rw [Place.queueOf_of_slot rfl] at hes
      obtain rfl := Option.some.inj ((if_pos hname.symm).symm.trans hes)
      rw [Hub.opening, hcount]
      rfl

namespace Trail

variable {past later earlier : List Moment} {x : Moment} {h : Hub} {c : Client} {g : Registration}

/-- The name of a connection is not given out again. -/
theorem client_ne (htrail : Trail (x :: past) h)
    (hc : c ∈ handles (past.map Moment.occurrence)) (g : Registration)
    (hact : x.act = .register g) :
    g.client ≠ c.id := by
  have hnew := htrail.uncons.2.1
  rw [hact] at hnew
  exact (hnew c hc).symm

theorem closed_after (htrail : Trail (x :: past) h) {k : ClientId} (hk : k ∈ x.before.closed) :
    k ∈ h.closed := by
  obtain ⟨hbefore, -, -, hu⟩ := htrail.uncons
  obtain ⟨c, hc, rfl⟩ := hbefore.sound.closed_known k hk
  rw [hu.closed]
  refine (htrail.last.sound.mem_closed_iff (handles_append [x] hc)).mpr ?_
  cases hqueue : (x.after.place c.session).queueOf c.id with
  | none => rfl
  | some es =>
      obtain ⟨es', live, hqueue', -⟩ := (htrail.step_last c.session).conserves (htrail.client_ne hc)
        hqueue
      cases ((hbefore.sound.mem_closed_iff hc).mp hk).symm.trans hqueue'

/-- A connection that is over is over for good. -/
theorem closed_since (htrail : Trail (later ++ x :: earlier) h) {k : ClientId}
    (hk : k ∈ x.after.closed) : k ∈ h.closed :=
  htrail.since (P := fun _ h => k ∈ h.closed) hk (fun _ _ htrail' hk' => htrail'.closed_after hk')
    fun _ _ _ hu hk' => hu.closed.symm ▸ hk'

/-- What is read from a connection and what is in its queue make up what it carries. -/
theorem carries (htrail : Trail (later ++ x :: earlier) h) (hact : x.act = .register g)
    (hout : x.outcome = .admitted c) : ∃ greeting replay live,
      Carries x g c (later.map Moment.occurrence) greeting replay live ∧
      readBy c (later.map Moment.occurrence) <+: greeting :: replay ++ live ∧
      ∀ es, (h.place c.session).queueOf c.id = some es →
        readBy c (later.map Moment.occurrence) ++ es = greeting :: replay ++ live := by
  have hc : c ∈ handles ((x :: earlier).map Moment.occurrence) := handles_admitted hout
  refine htrail.since (P := fun later h => ∃ greeting replay live,
    Carries x g c (later.map Moment.occurrence) greeting replay live ∧
    readBy c (later.map Moment.occurrence) <+: greeting :: replay ++ live ∧
    ∀ es, (h.place c.session).queueOf c.id = some es →
      readBy c (later.map Moment.occurrence) ++ es = greeting :: replay ++ live) ?_ ?_ ?_
  · obtain ⟨greeting, replay, hcarries, hqueue⟩ :=
      htrail.carries_start hact hout
    refine ⟨greeting, replay, [], hcarries, List.nil_prefix, ?_⟩
    intro es hes
    rw [hqueue es hes, List.append_nil]
    rfl
  · rintro y later hy ⟨greeting, replay, live, hcarries, hread, hqueue⟩
    have hstep := hy.step_last c.session
    have hnew := hy.client_ne (handles_append _ hc)
    have hsent : List.Sublist live (addressed c.session ((y :: later).map Moment.occurrence)) :=
      hcarries.sent.trans (List.sublist_append_left _ _)
    cases hleft : (y.after.place c.session).queueOf c.id with
    | some es' =>
        obtain ⟨es, more, hes, hmore, hsame⟩ := hstep.conserves hnew hleft
        have hall : readBy c ((y :: later).map Moment.occurrence) ++ es'
            = greeting :: replay ++ (live ++ more) := by
          calc readBy c (later.map Moment.occurrence) ++ (y.occurrence.readBy? c).toList ++ es'
              = readBy c (later.map Moment.occurrence) ++ es ++ more := by
                rw [List.append_assoc, List.append_assoc, hsame]
                rfl
            _ = greeting :: replay ++ (live ++ more) := by rw [hqueue es hes, List.append_assoc]
        refine ⟨greeting, replay, live ++ more,
          { hcarries with sent := hcarries.sent.append hmore }, ⟨es', hall⟩, ?_⟩
        intro es hes
        obtain rfl := Option.some.inj hes
        exact hall
    | none =>
        have hnone : y.occurrence.readBy? c = none := by
          refine Option.eq_none_iff_forall_not_mem.mpr ?_
          intro e he
          obtain ⟨es', hes'⟩ := hstep.read_keeps he
          cases hleft.symm.trans hes'
        refine ⟨greeting, replay, live, { hcarries with sent := hsent }, ?_, nofun⟩
        rw [List.map_cons, readBy, hnone]
        simpa using hread
  · rintro later h h' hu ⟨greeting, replay, live, hcarries, hread, hqueue⟩
    exact ⟨greeting, replay, live, hcarries, hread, hu.place c.session ▸ hqueue⟩

/-- Who was told that the connection is over reads nothing more. -/
theorem read_closed (htrail : Trail past h) (hc : c ∈ handles (past.map Moment.occurrence))
    (hclosed : c.id ∈ h.closed) : (h.read c).2 = .closed := by
  rw [Hub.read_reading, Place.reading_eq, (htrail.sound.mem_closed_iff hc).mp hclosed]

theorem reads_closed (htrail : Trail (later ++ x :: earlier) h) (hout : x.outcome = .admitted c) :
    (later ++ [x]).Pairwise fun z y =>
      c.id ∈ y.after.closed → z.act = .read c → z.outcome = .reading .closed := by
  induction later generalizing h with
  | nil => exact List.pairwise_singleton _ _
  | cons z later ih =>
      have hbefore : Trail (later ++ x :: earlier) z.before := htrail.uncons.1
      refine List.pairwise_cons.mpr ⟨?_, ih hbefore⟩
      intro y hy hclosed hact
      obtain ⟨newer, older, hsplit⟩ := List.append_of_mem (show y ∈ later ++ [x] from hy)
      have hall : later ++ x :: earlier = newer ++ y :: (older ++ earlier) := by
        rw [← List.singleton_append, ← List.append_assoc, hsplit, List.append_assoc]
        rfl
      rw [Moment.outcome, hact]
      refine congrArg Outcome.reading (hbefore.read_closed ?_ ?_)
      · exact handles_append _ (handles_admitted hout)
      · exact (hall ▸ hbefore).closed_since hclosed

/-- **What a client reads.** From a connection that was admitted one reads the greeting,
then the buffer that its session had, flagged as a replay, then events of messages that
were sent since and are for the session, all in order; and once the connection is over,
nothing more. An event is carried once for each time that its message names the session:
if none does so twice, these are some of the messages, as they were sent. -/
theorem stream (htrail : Trail (later ++ x :: earlier) h) (hact : x.act = .register g)
    (hout : x.outcome = .admitted c) : ∃ greeting replay live,
      Carries x g c (later.map Moment.occurrence) greeting replay live ∧
      readBy c (later.map Moment.occurrence) <+: greeting :: replay ++ live ∧
      ((∀ m ∈ sent (later.map Moment.occurrence), m.scope.copies c.session ≤ 1) →
        List.Sublist live (covering c.session (later.map Moment.occurrence))) ∧
      ((∀ m ∈ sent (later.map Moment.occurrence), m.event.replayed = false) →
        ∀ e ∈ live, e.replayed = false) ∧
      (h.isClosed c = true → (h.read c).2 = .closed) ∧
      (later ++ [x]).Pairwise fun z y =>
        c.id ∈ y.after.closed → z.act = .read c → z.outcome = .reading .closed := by
  obtain ⟨greeting, replay, live, hcarries, hread, -⟩ := htrail.carries hact hout
  refine ⟨greeting, replay, live, hcarries, hread, ?_, ?_, ?_, htrail.reads_closed hout⟩
  · intro honce
    exact addressed_eq_covering honce ▸ hcarries.sent
  · intro hplain e he
    obtain ⟨m, hm, rfl⟩ := mem_addressed (hcarries.sent.subset he)
    exact hplain m hm
  · intro hclosed
    exact htrail.read_closed (handles_append _ (handles_admitted hout))
      (List.contains_iff_mem.mp hclosed)

/-- A client that was away for one event comes back, is sent another, and reads all. -/
theorem stream_resumed : ∃ later earlier h c greeting replay live, Trail (later ++ earlier) h ∧
    readBy c (later.map Moment.occurrence) <+: greeting :: replay ++ live ∧
    (readBy c (later.map Moment.occurrence)).map (·.id) = [EventId.ofSerial 2, "A", "B"] ∧
    replay.length = 1 ∧ List.Sublist live (covering "S1" (later.map Moment.occurrence)) := by
  let c : Client := ⟨⟨2⟩, "S1", true, 1⟩
  let send (id : EventId) := Act.dispatch ⟨⟨id, "news", [], false⟩, .everyone⟩
  have hback := (((opened {} {} (by decide)).step
    (.register (.numbered 1 none none [.ok "S1"])) (by decide +kernel) (by decide +kernel)).step
    (.release "S1" none) trivial rfl).step (send "A") trivial rfl
  have htrail := ((((hback.step (.register (.numbered 2 (some "S1") none [])) (by decide +kernel)
    (by decide +kernel)).step (send "B") trivial rfl).step (.read c) trivial rfl).step
    (.read c) trivial rfl).step (.read c) trivial rfl
  have hstream := stream (c := c) (show Trail ([_, _, _, _] ++ _ :: _) _ from htrail) rfl
  obtain ⟨greeting, replay, live, hcarries, hread, hlive, -⟩ :=
    hstream (Moment.handle?_eq_some.mp (by decide +kernel))
  exact ⟨_, _, _, c, greeting, replay, live, htrail, hread, by decide +kernel, hcarries.count,
    hlive (by decide +kernel)⟩

/-- A client comes, and one message names its session twice. It reads the event twice, so
that what it reads of live events are not some of the messages as they were sent. -/
theorem stream_doubled : ∃ later x h g c, Trail (later ++ [x]) h ∧ x.act = .register g ∧
    x.outcome = .admitted c ∧ (∀ m ∈ sent (later.map Moment.occurrence), m.event.replayed = false) ∧
    ¬ ∃ greeting replay live, replay.length = c.replayed ∧
      readBy c (later.map Moment.occurrence) <+: greeting :: replay ++ live ∧
      List.Sublist live (covering c.session (later.map Moment.occurrence)) := by
  let c : Client := ⟨⟨1⟩, "S1", false, 0⟩
  have htrail := (((((opened {} {} (by decide)).step
    (.register (.numbered 1 none none [.ok "S1"])) (by decide +kernel) (by decide +kernel)).step
    (.dispatch ⟨⟨"A", "news", [], false⟩, .sessions ["S1", "S1"]⟩) trivial rfl).step
    (.read c) trivial rfl).step (.read c) trivial rfl).step (.read c) trivial rfl
  refine ⟨[_, _, _, _], _, _, _, c, htrail, rfl, by rfl, by decide +kernel, ?_⟩
  rintro ⟨greeting, replay, live, hcount, hread, hlive⟩
  have hthree : 3 ≤ (greeting :: replay ++ live).length :=
    Nat.le_trans (by decide +kernel) hread.length_le
  have hone : live.length ≤ 1 := Nat.le_trans hlive.length_le (by decide +kernel)
  rw [List.length_append, List.length_cons, hcount] at hthree
  exact absurd (Nat.le_trans hthree (Nat.add_le_add_left hone 1)) (by decide)

end Trail

end EventRelay
