import EventRelay.Proofs.Isolation
import EventRelay.Proofs.Ledger

/-!
# What comes back to a client

The `Ledger` of a session goes on with every moment of a trail (`Moment.enter`), and what
the session keeps is what its ledger says (`Trail.follows`). So every replay can be read off
the ledger (`Trail.replay?_eq`): of all that was sent to a session, those events come back
that found it without a client, or took a lost client from it, and that were neither
displaced nor acknowledged since (`Trail.comes_back_iff`).

An event that joined the queue of a client is not among them. It is with the client as soon
as it is in the queue, and when the connection ends the queue ends too, read or not
(`unread_lost`).
-/

namespace EventRelay

/-! ## Fates and the ledger -/

/-- The event is for the buffer of the session, not for a client. -/
def Fate.misses : Fate → Bool
  | .kept | .handedOver => true
  | .delivered | .dropped => false

/-- The fates of an event that is sent to the place several times. -/
def Place.fates (e : Event) (t : Terms) : Nat → Place → List Fate
  | 0, _ => []
  | n + 1, p => p.fate t :: Place.fates e t n (p.receive e t)

namespace Ledger

variable (l : Ledger)

/-- A message is missed. What is for live clients only is not kept. -/
def miss (m : Message) : Ledger :=
  if m.scope = .live then l else { l with missed := l.missed ++ [m.event] }

/-- A message meets a fate. -/
def meet (m : Message) (l : Ledger) : Fate → Ledger
  | .kept => l.miss m
  | .handedOver => l.leave.miss m
  | .delivered | .dropped => l

/-- A client is admitted, to the session that was there or to a new one. -/
def enroll (capacity : Nat) (g : Registration) (reconnected : Bool) : Ledger :=
  let l := if reconnected then l.present capacity g.lastEventId else {}
  if g.abandoned then l.leave else l

variable {l}

theorem leave_of_not_held (hidle : l.held = false) : l.leave = l := by
  rw [leave, ← hidle]

theorem miss_live {m : Message} (hlive : m.scope = .live) : l.miss m = l := if_pos hlive

theorem miss_eq_push {m : Message} (hlasting : m.scope ≠ .live) (hidle : l.held = false) :
    l.miss m = l.push m.event := by
  rw [miss, if_neg hlasting, push, hidle]
  rfl

/-- A message adds its event once for each time that it is missed. -/
theorem missed_meets (m : Message) (fs : List Fate) (l : Ledger) :
    (fs.foldl (meet m) l).missed
      = l.missed ++ List.replicate
        (if m.scope = .live then 0 else fs.countP Fate.misses) m.event := by
  induction fs generalizing l with
  | nil => simp
  | cons f fs ih =>
      rw [List.foldl_cons, ih, List.countP_cons]
      by_cases hlive : m.scope = .live
      · cases f <;> simp [meet, miss, leave, hlive]
      · cases f <;> simp [meet, miss, leave, hlive, Fate.misses, List.replicate_succ]

end Ledger

namespace Moment

variable (x : Moment) (id : SessionId)

/-- The fates of a message that is sent at this moment. -/
def fates (m : Message) : List Fate :=
  Place.fates m.event x.before.terms (m.scope.copies id) (x.before.place id)

/-- The ledger of the session after the moment. -/
def enter (l : Ledger) : Ledger :=
  match x.act with
  | .register g =>
    match x.outcome with
    | .admitted c =>
      if c.session = id then l.enroll x.before.registry.config.bufferCapacity g c.reconnected else l
    | _ => l
  | .dispatch m => (x.fates id m).foldl (Ledger.meet m) l
  | _ => if Table.contains x.after.clients id then l else l.leave

/-- What a moment adds to the missed events was sent then, unless the session is new. -/
theorem missed_enter (l : Ledger) :
    x.occurrence.begins id = true ∧ (x.enter id l).missed = [] ∨
      ∃ es, (x.enter id l).missed = l.missed ++ es ∧
        ∀ e ∈ es, ∃ m ∈ sent [x.occurrence], m.event = e := by
  cases hact : x.act with
  | register g =>
      unfold enter
      rw [hact]
      dsimp only
      split
      · next c hout =>
          split
          · next hid =>
              rw [Occurrence.begins, occurrence, hout]
              cases hback : c.reconnected with
              | false =>
                  refine Or.inl ⟨by simp [hid, hback], ?_⟩
                  cases hgone : g.abandoned <;> simp [Ledger.enroll, hgone, Ledger.leave]
              | true =>
                  refine Or.inr ⟨[], ?_, List.forall_mem_nil _⟩
                  cases hgone : g.abandoned <;>
                    simp [Ledger.enroll, hgone, Ledger.leave, Ledger.present]
          · exact Or.inr ⟨[], (List.append_nil _).symm, List.forall_mem_nil _⟩
      · exact Or.inr ⟨[], (List.append_nil _).symm, List.forall_mem_nil _⟩
  | dispatch m =>
      refine Or.inr ⟨_, by rw [enter, hact]; exact Ledger.missed_meets m _ l, ?_⟩
      intro e he
      refine ⟨m, ?_, (List.eq_of_mem_replicate he).symm⟩
      simp [sent, Occurrence.message?, occurrence, hact]
  | _ =>
      refine Or.inr ⟨[], ?_, List.forall_mem_nil _⟩
      rw [List.append_nil, enter, hact]
      dsimp only
      split <;> rfl

end Moment

/-- The ledger of a session after some moments, the latest first. -/
def Ledger.ofMoments (id : SessionId) : List Moment → Ledger
  | [] => {}
  | x :: past => x.enter id (Ledger.ofMoments id past)

namespace Ledger

variable {id : SessionId} {newer older : List Moment}

/-- All that was missed was sent. -/
theorem mem_missed {past : List Moment} {e : Event} (he : e ∈ (ofMoments id past).missed) :
    ∃ m ∈ sent (past.map Moment.occurrence), m.event = e := by
  induction past with
  | nil => cases he
  | cons x past ih =>
      have hsent : sent ((x :: past).map Moment.occurrence)
          = sent [x.occurrence] ++ sent (past.map Moment.occurrence) :=
        List.filterMap_append (l := [x.occurrence])
      rw [hsent]
      rw [ofMoments] at he
      rcases x.missed_enter id (ofMoments id past) with ⟨-, hnone⟩ | ⟨es, hadded, hes⟩
      · rw [hnone] at he
        cases he
      · rw [hadded] at he
        rcases List.mem_append.mp he with hbefore | hnow
        · obtain ⟨m, hm, rfl⟩ := ih hbefore
          exact ⟨m, List.mem_append_right _ hm, rfl⟩
        · obtain ⟨m, hm, rfl⟩ := hes e hnow
          exact ⟨m, List.mem_append_left _ hm, rfl⟩

/-- As long as the session lasts its ledger only grows, by what is sent. -/
theorem missed_since (hlasts : ∀ y ∈ newer, y.occurrence.begins id = false) :
    ∃ es, (ofMoments id (newer ++ older)).missed = (ofMoments id older).missed ++ es ∧
      ∀ e ∈ es, ∃ m ∈ sent (newer.map Moment.occurrence), m.event = e := by
  induction newer with
  | nil => exact ⟨[], (List.append_nil _).symm, nofun⟩
  | cons y newer ih =>
      obtain ⟨hy, hrest⟩ := List.forall_mem_cons.mp hlasts
      obtain ⟨es, hbefore, hes⟩ := ih hrest
      have hsent : sent ((y :: newer).map Moment.occurrence)
          = sent [y.occurrence] ++ sent (newer.map Moment.occurrence) :=
        List.filterMap_append (l := [y.occurrence])
      rw [hsent]
      rcases y.missed_enter id (ofMoments id (newer ++ older)) with
        ⟨hbegins, -⟩ | ⟨es', hadded, hes'⟩
      · cases hy.symm.trans hbegins
      · refine ⟨es ++ es', ?_, ?_⟩
        · rw [List.cons_append, ofMoments, hadded, hbefore, List.append_assoc]
        · intro e he
          rcases List.mem_append.mp he with he | he
          · obtain ⟨m, hm, rfl⟩ := hes e he
            exact ⟨m, List.mem_append_right _ hm, rfl⟩
          · obtain ⟨m, hm, rfl⟩ := hes' e he
            exact ⟨m, List.mem_append_left _ hm, rfl⟩

/-- An event is in the replay if its place in the ledger is behind what is acknowledged and
among the last events that fit the buffer. -/
theorem mem_replay_iff {l : Ledger} {e : Event} {as bs : List Event} {k : Nat}
    (hmissed : l.missed = as ++ List.replicate k e ++ bs) (hapart : ∀ a ∈ as ++ bs, a.id ≠ e.id)
    (capacity : Nat) (last : Option EventId) :
    e.asReplay ∈ l.replay capacity last ↔ 0 < k ∧ l.covered capacity last < as.length + k ∧
      l.missed.length < as.length + k + capacity := by
  have hkept : (l.present capacity last).kept capacity = (as ++ List.replicate k e ++ bs).drop
      (max (l.covered capacity last) (l.missed.length - capacity)) := by
    rw [← hmissed]
    rfl
  have hlen : l.missed.length = as.length + k + bs.length := by
    rw [hmissed, List.length_append, List.length_append, List.length_replicate]
  rw [replay, hkept]
  generalize hstart : max (l.covered capacity last) (l.missed.length - capacity) = start
  have hunmarked : e.asReplay ∈ ((as ++ List.replicate k e ++ bs).drop start).map Event.asReplay ↔
      e ∈ (as ++ List.replicate k e ++ bs).drop start := by
    refine ⟨?_, List.mem_map_of_mem⟩
    intro he
    obtain ⟨a, ha, heq⟩ := List.mem_map.mp he
    have hid : a.asReplay.id = e.asReplay.id := congrArg Event.id heq
    rcases List.mem_append.mp (List.mem_of_mem_drop ha) with hmem | hmem
    · rcases List.mem_append.mp hmem with hmem | hmem
      · exact absurd hid (hapart a (List.mem_append_left _ hmem))
      · exact List.eq_of_mem_replicate hmem ▸ ha
    · exact absurd hid (hapart a (List.mem_append_right _ hmem))
  have hbefore : ∀ n, e ∉ as.drop n :=
    fun n he => hapart e (List.mem_append_left _ (List.mem_of_mem_drop he)) rfl
  have hafter : ∀ n, e ∉ bs.drop n :=
    fun n he => hapart e (List.mem_append_right _ (List.mem_of_mem_drop he)) rfl
  rw [hunmarked, List.drop_append, List.drop_append, List.mem_append, List.mem_append,
    List.drop_replicate, List.mem_replicate]
  simp only [hbefore, hafter, false_or, or_false, and_true]
  omega

end Ledger

/-! ## A session follows its ledger -/

namespace Place

variable {keeps : Session → Session → Prop} {p q : Place} {t : Terms} {s : Session} {l : Ledger}
  {m : Message}

theorem Meets.follows {f : Fate} (hm : Meets keeps m.event t f p q)
    (hkeeps : ∀ s s' l, s.active = false → keeps s s' → s.Follows l → s'.Follows (l.miss m))
    (hs : p.session = some s) (hf : s.Follows l) :
    ∃ s', q.session = some s' ∧ s'.Follows (l.meet m f) := by
  cases hm with
  | kept hidle hkept =>
      obtain rfl := Option.some.inj hs
      exact ⟨_, rfl, hkeeps _ _ l hidle hkept hf⟩
  | delivered => exact ⟨s, hs, hf⟩
  | dropped => exact ⟨s, hs, hf⟩
  | handedOver hactive hover hkept =>
      obtain rfl := Option.some.inj hs
      exact ⟨_, rfl, hkeeps _ _ l.leave rfl hkept (hf.disconnect t.now)⟩

/-- An event that is sent to the place several times. -/
theorem Sound.follows_receive {n : Nat} (hp : p.Sound n) (hs : p.session = some s)
    (hf : s.Follows l) (hlasting : m.scope ≠ .live) (copies : Nat) :
    ∃ s', ((fun p => p.receive m.event t)^[copies] p).session = some s' ∧
      s'.Follows ((fates m.event t copies p).foldl (Ledger.meet m) l) := by
  induction copies generalizing p s l with
  | zero => exact ⟨s, hs, hf⟩
  | succ copies ih =>
      obtain ⟨s', hs', hf'⟩ := (hp.held.meets_receive (t := t) hs m.event).follows
        (fun s s' l hidle (hmiss : s' = (s.miss m.event).1) hf => by
          rw [hmiss, Ledger.miss_eq_push hlasting (hf.held ▸ hidle)]
          exact hf.miss hidle m.event) hs hf
      exact ih (hp.receive m.event) hs' hf'

/-- The session, if it stays, is as it was, and so is its client, unless it is disconnected. -/
def Stays (t : Terms) (p q : Place) : Prop :=
  ∀ s', q.session = some s' →
    p.session = some s' ∧ q.slot.isSome = p.slot.isSome ∨
      q.slot = none ∧ ∃ s, p.session = some s ∧ s' = s.disconnect t.now

theorem Stays.refl (t : Terms) (p : Place) : p.Stays t p := fun _ hs => Or.inl ⟨hs, rfl⟩

theorem stays_vacate (p : Place) (t : Terms) : p.Stays t (p.vacate t) := by
  obtain ⟨session, slot⟩ := p
  cases slot with
  | none => exact .refl t _
  | some slot =>
      intro s' hs'
      obtain ⟨s, hs, rfl⟩ := Option.map_eq_some_iff.mp hs'
      exact Or.inr ⟨rfl, s, hs, rfl⟩

theorem stays_inspect (p : Place) (t : Terms) : p.Stays t (p.inspect t) := by
  unfold inspect judge
  split
  · exact .refl t p
  · next slot hslot =>
      split
      · exact stays_vacate p t
      · exact fun s hs => Or.inl ⟨hs, by rw [hslot]; rfl⟩

theorem stays_read (p : Place) (c : ClientId) (t : Terms) : p.Stays t (p.read c) := by
  unfold read
  split
  · exact .refl t p
  · next slot hslot =>
      split
      · exact .refl t p
      · exact fun s hs => Or.inl ⟨hs, by rw [(Option.filter_eq_some_iff.mp hslot).1]; rfl⟩

theorem stays_leave (p : Place) (c : ClientId) (t : Terms) : p.Stays t (p.leave c) := by
  unfold leave
  split
  · exact .refl t p
  · next slot hslot =>
      exact fun s hs => Or.inl ⟨hs, by rw [(Option.filter_eq_some_iff.mp hslot).1]; rfl⟩

theorem stays_expire (p : Place) (t : Terms) : p.Stays t (p.expire t) :=
  fun _ hs => Or.inl ⟨(Option.filter_eq_some_iff.mp hs).1, rfl⟩

end Place

namespace Hub

variable {h : Hub} {hs : List Client} {id : SessionId} {s : Session} {l : Ledger} {a : Act}
  {o : Outcome} {q : Place} {g : Registration}

/-- Apart from admissions and messages, what a session that stays has is what it had. -/
theorem Step.stays (hstep : h.Step id a o q) (hregister : ∀ g, a ≠ .register g)
    (hdispatch : ∀ m, a ≠ .dispatch m) : (h.place id).Stays h.terms q := by
  cases hstep with
  | aside => exact .refl _ _
  | reclaimed => exact absurd rfl (hregister _)
  | created => exact absurd rfl (hregister _)
  | dispatched => exact absurd rfl (hdispatch _)
  | inspected => exact Place.stays_inspect _ _
  | read hc => exact Place.stays_read _ _ _
  | left hc => exact Place.stays_leave _ _ _
  | released hslot hclient => exact Place.stays_vacate _ _
  | stopped => exact Place.stays_vacate _ _
  | swept => exact Place.stays_expire _ _
  | looked => exact Place.stays_expire _ _

theorem Sound.follows_dispatch (hS : h.Sound hs) (m : Message) (hs : h.registry.find? id = some s)
    (hf : s.Follows l) : ∃ s', (h.dispatch m).registry.find? id = some s' ∧
      s'.Follows ((Moment.fates ⟨.dispatch m, h⟩ id m).foldl (Ledger.meet m) l) := by
  have hplace : ((h.act (.dispatch m)).1).place id = (h.place id).next h.terms id (.dispatch m) :=
    hS.place_act nofun
  show ∃ s', ((h.act (.dispatch m)).1.place id).session = some s' ∧ _
  rw [hplace, Place.next, Moment.fates]
  by_cases hlive : m.scope = .live
  · -- it is offered once, and nothing is kept
    obtain ⟨s', hs', hf'⟩ :=
      ((hS.place id).held.meets_tell (t := h.terms) hs m.event).follows (m := m)
      (fun s s' l _ (hsame : s' = s) hf => by rwa [hsame, Ledger.miss_live hlive]) hs hf
    rw [if_pos hlive]
    refine ⟨s', hs', ?_⟩
    rw [hlive]
    exact hf'
  · rw [if_neg hlive]
    exact (hS.place id).follows_receive hs hf hlive _

/-- Whoever is admitted gets what the ledger says, and goes at once if nobody waits. -/
theorem Sound.follows_admitted (hS : h.Sound hs) {c : Client}
    (hstep : h.Step id (.register g) (.admitted c) q) (hid : c.session = id)
    (hf : ∀ s, h.registry.find? id = some s → s.Follows l) {s' : Session}
    (hs' : q.session = some s') :
    s'.Follows (l.enroll h.registry.config.bufferCapacity g c.reconnected) := by
  obtain ⟨s, rfl, -, -, hwhence⟩ := hstep.admitted hid
  have hadmitted : s.Follows (if c.reconnected
      then l.present h.registry.config.bufferCapacity g.lastEventId else {}) := by
    rcases hwhence with ⟨hback, -, s₀, hs₀, rfl⟩ | ⟨hnew, -, -, rfl⟩
    · rw [if_pos hback, ← ((hS.place id).wf s₀ hs₀).2]
      exact (hf s₀ hs₀).reclaim _ _
    · rw [hnew]
      exact Session.follows_fresh ..
  unfold Place.answer at hs'
  unfold Ledger.enroll
  split at hs'
  · next hgone =>
      obtain rfl := Option.some.inj hs'
      rw [if_pos hgone]
      exact hadmitted.disconnect _
  · next hstays =>
      obtain rfl := Option.some.inj hs'
      rw [if_neg hstays]
      exact hadmitted

end Hub

namespace Trail

variable {past newer older : List Moment} {x : Moment} {h : Hub} {id : SessionId} {s : Session}
  {g : Registration} {replay : List Event}

/-- At every point of every run a session has what its ledger says. -/
theorem follows (htrail : Trail past h) (hs : h.registry.find? id = some s) :
    s.Follows (Ledger.ofMoments id past) := by
  induction htrail generalizing s with
  | start hempty hstart =>
      rw [(Broker.start_hub hstart).1, Registry.find?, hempty] at hs
      cases hs
  | @step past h htrail a hnew hfault ih =>
      have hS := htrail.sound
      have hS' := (htrail.step a hnew hfault).sound
      have hstep := hS.step a hfault id
      have hafter : ((h.act a).1.place id).session = some s := hs
      -- whatever else happens, the ledger only needs to know whether the client is still there
      have hother : (∀ g, a ≠ .register g) → (∀ m, a ≠ .dispatch m) →
          s.Follows (if Table.contains (h.act a).1.clients id then Ledger.ofMoments id past
            else (Ledger.ofMoments id past).leave) := by
        intro hregister hdispatch
        rcases hstep.stays hregister hdispatch s hafter with ⟨hs₀, -⟩ | ⟨hgone, s₀, hs₀, rfl⟩
        · have hf := ih hs₀
          split
          · exact hf
          · next hfree =>
              rwa [Ledger.leave_of_not_held]
              rw [← hf.held, (hS'.place id).held.active_eq hafter]
              exact Bool.eq_false_iff.mpr hfree
        · have hfree : Table.contains (h.act a).1.clients id = false := congrArg Option.isSome hgone
          rw [hfree]
          exact (ih hs₀).disconnect _
      rw [Ledger.ofMoments]
      cases a with
      | register g =>
          show s.Follows (match (h.act (.register g)).2 with
            | .admitted c => if c.session = id then
                (Ledger.ofMoments id past).enroll h.registry.config.bufferCapacity g c.reconnected
                else Ledger.ofMoments id past
            | _ => Ledger.ofMoments id past)
          generalize (h.act (.register g)).2 = o at hstep
          split
          · next c =>
              split
              · next hid => exact hS.follows_admitted hstep hid (fun s hs => ih hs) hafter
              · next hid =>
                  rw [hstep.register_aside (by rintro c ⟨⟩; exact hid)] at hafter
                  exact ih hafter
          · next hnobody =>
              rw [hstep.register_aside fun c hout => absurd hout (hnobody c)] at hafter
              exact ih hafter
      | dispatch m =>
          cases hs₀ : h.registry.find? id with
          | none =>
              rw [show ((h.act (.dispatch m)).1.place id) = h.place id from
                hS.dispatch_absent m hs₀]
                at hafter
              cases hs₀.symm.trans hafter
          | some s₀ =>
              obtain ⟨s', hs', hf'⟩ := hS.follows_dispatch m hs₀ (ih hs₀)
              obtain rfl := Option.some.inj (hs'.symm.trans hs)
              exact hf'
      | _ => exact hother (fun _ => Act.noConfusion) fun _ => Act.noConfusion
  | aside htrail hsame ih =>
      refine ih ?_
      rw [← hs, Registry.find?, Registry.find?, hsame.sessions]

/-- The replay with which a registration gets its session back. -/
theorem replay?_eq (htrail : Trail past h) (hback : h.replay? id g = some replay) :
    replay = (Ledger.ofMoments id past).replay h.registry.config.bufferCapacity g.lastEventId := by
  have hS := htrail.sound
  obtain ⟨-, -, s, hs, rfl⟩ := hS.replay?_iff.mp hback
  rw [(htrail.follows hs).replay_eq, ((hS.place id).wf s hs).2]

/-- **What comes back.** Let a message go out whose event bears a name that no other message
has, and let its session last until a registration gets it back. The replay has the event
exactly if the message is one that is kept, found the session without a client or took a lost
client from it, and its event is neither acknowledged nor displaced: its place in the ledger
is behind those that the client has acknowledged, and among the last that were missed.

So an event that was taken for a client, or dropped for one, does not come back, however the
connection ended, whether the client had read the event, and whatever is presented. -/
theorem comes_back_iff (htrail : Trail (newer ++ x :: older) h) {m : Message}
    (hact : x.act = .dispatch m) (hlasts : ∀ y ∈ newer, y.occurrence.begins id = false)
    (hnames : ∀ m' ∈ sent ((newer ++ older).map Moment.occurrence), m'.event.id ≠ m.event.id)
    (hback : h.replay? id g = some replay) :
    (m.event.asReplay ∈ replay ↔
      m.scope ≠ .live ∧ (∃ f ∈ x.fates id m, f.misses = true) ∧
      (Ledger.ofMoments id (newer ++ x :: older)).covered h.registry.config.bufferCapacity
          g.lastEventId < (Ledger.ofMoments id (x :: older)).missed.length ∧
      (Ledger.ofMoments id (newer ++ x :: older)).missed.length
        < (Ledger.ofMoments id (x :: older)).missed.length + h.registry.config.bufferCapacity) ∧
    ((∀ f ∈ x.fates id m, f.misses = false) → m.event.asReplay ∉ replay) := by
  obtain ⟨es, hlater, hes⟩ := @Ledger.missed_since id newer (x :: older) hlasts
  have hnow : (Ledger.ofMoments id (x :: older)).missed = (Ledger.ofMoments id older).missed
      ++ List.replicate
        (if m.scope = .live then 0 else (x.fates id m).countP Fate.misses) m.event := by
    rw [Ledger.ofMoments, Moment.enter, hact]
    exact Ledger.missed_meets m _ _
  have hsent : sent ((newer ++ older).map Moment.occurrence)
      = sent (newer.map Moment.occurrence) ++ sent (older.map Moment.occurrence) := by
    rw [List.map_append]
    exact List.filterMap_append
  rw [hsent] at hnames
  have hapart : ∀ e ∈ (Ledger.ofMoments id older).missed ++ es, e.id ≠ m.event.id := by
    intro e he
    rcases List.mem_append.mp he with he | he
    · obtain ⟨m', hm', rfl⟩ := Ledger.mem_missed he
      exact hnames m' (List.mem_append_right _ hm')
    · obtain ⟨m', hm', rfl⟩ := hes e he
      exact hnames m' (List.mem_append_left _ hm')
  have hmissed : 0 < (if m.scope = .live then 0 else (x.fates id m).countP Fate.misses) ↔
      m.scope ≠ .live ∧ ∃ f ∈ x.fates id m, f.misses = true := by
    split
    · next hlive => simp [hlive]
    · next hlasting => simp [hlasting, List.countP_pos_iff]
  have hlength : (Ledger.ofMoments id (x :: older)).missed.length
      = (Ledger.ofMoments id older).missed.length
        + if m.scope = .live then 0 else (x.fates id m).countP Fate.misses := by
    rw [hnow, List.length_append, List.length_replicate]
  have hiff := Ledger.mem_replay_iff (hnow ▸ hlater) hapart h.registry.config.bufferCapacity
    g.lastEventId
  rw [← htrail.replay?_eq hback, hmissed, ← hlength, and_assoc] at hiff
  refine ⟨hiff, ?_⟩
  intro htaken hmem
  obtain ⟨-, ⟨f, hf, hmisses⟩, -⟩ := hiff.mp hmem
  cases (htaken f hf).symm.trans hmisses

/-- Two events are sent, one before the client lets go of its connection and one after that.
It has read neither, and when it comes back it gets the second one alone. -/
theorem second_comes_back : ∃ past h replay, Trail past h ∧
    heard "S1" (past.map Moment.occurrence) = [] ∧
    h.replay? "S1" (.numbered 2 (some "S1") none []) = some replay ∧
    Event.asReplay ⟨"A", "news", [], false⟩ ∉ replay ∧
    Event.asReplay ⟨"B", "news", [], false⟩ ∈ replay := by
  let send (id : EventId) : Act := .dispatch ⟨⟨id, "news", [], false⟩, .everyone⟩
  have htrail := ((((opened {} {} (by decide)).step (.register (.numbered 1 none none [.ok "S1"]))
    (by decide +kernel) (by decide +kernel)).step (send "A") trivial rfl).step (.release "S1" none)
    trivial rfl).step (send "B") trivial rfl
  obtain ⟨first, release, second, older, h, htrail, hunread, hlasts, hfirst, hsecond,
      hnames, hnames', htaken, hmissed, hback⟩ : ∃ first release second older h,
      Trail ([second, release] ++ first :: older) h ∧
      heard "S1" ((second :: release :: first :: older).map Moment.occurrence) = [] ∧
      (∀ y ∈ [second, release], y.occurrence.begins "S1" = false) ∧
      first.act = send "A" ∧ second.act = send "B" ∧
      (∀ m ∈ sent (([second, release] ++ older).map Moment.occurrence), m.event.id ≠ "A") ∧
      (∀ m ∈ sent ((release :: first :: older).map Moment.occurrence), m.event.id ≠ "B") ∧
      (∀ f ∈ first.fates "S1" ⟨⟨"A", "news", [], false⟩, .everyone⟩, f.misses = false) ∧
      ((∃ f ∈ second.fates "S1" ⟨⟨"B", "news", [], false⟩, .everyone⟩, f.misses = true) ∧
        (Ledger.ofMoments "S1" (second :: release :: first :: older)).covered
          h.registry.config.bufferCapacity none
          < (Ledger.ofMoments "S1" (second :: release :: first :: older)).missed.length ∧
        0 < h.registry.config.bufferCapacity) ∧
      (h.replay? "S1" (.numbered 2 (some "S1") none [])).isSome = true :=
    ⟨_, _, _, [_], _, htrail, by decide +kernel, by decide +kernel, rfl, rfl, by decide +kernel,
      by decide +kernel, by decide +kernel, by decide +kernel, by decide +kernel⟩
  obtain ⟨replay, hback⟩ := Option.isSome_iff_exists.mp hback
  refine ⟨_, h, replay, htrail, hunread, hback,
    (comes_back_iff htrail hfirst hlasts hnames hback).2 htaken, ?_⟩
  obtain ⟨hmisses, hcovered, hroom⟩ := hmissed
  have htrail' : Trail ([] ++ second :: release :: first :: older) h := htrail
  refine (comes_back_iff htrail' hsecond nofun hnames' hback).1.mpr
    ⟨Scope.noConfusion, hmisses, hcovered, ?_⟩
  exact Nat.lt_add_of_pos_right hroom

/-- A client reads one event, and is sent another that it has not read yet when its connection
ends. It comes back in time, presents what it has read last, and gets nothing, though nothing
was displaced. -/
theorem unread_lost : ∃ newer x older h c m, Trail (newer ++ x :: older) h ∧
    x.act = .dispatch m ∧ m.scope = .everyone ∧ c.session = "S1" ∧
    c ∈ handles (older.map Moment.occurrence) ∧ x.fates "S1" m = [.delivered] ∧
    (∃ y ∈ newer, y.ends c) ∧ Orderly true "S1" ((newer ++ x :: older).map Moment.occurrence) ∧
    m.event.id ∉ (heard "S1" ((newer ++ x :: older).map Moment.occurrence)).map (·.id) ∧
    lastRead (heard "S1" ((newer ++ x :: older).map Moment.occurrence)) = some "L" ∧
    (Ledger.ofMoments "S1" (newer ++ x :: older)).missed = [] ∧
    0 < h.registry.config.bufferCapacity ∧
    h.replay? "S1" (.numbered 2 (some "S1") (some "L") []) = some [] := by
  let c : Client := ⟨⟨1⟩, "S1", false, 0⟩
  let send (id : EventId) : Act := .dispatch ⟨⟨id, "news", [], false⟩, .everyone⟩
  have htrail := ((((((opened {} {} (by decide)).step (.register (.numbered 1 none none [.ok "S1"]))
    (by decide +kernel) (by decide +kernel)).step (send "L") trivial rfl).step (.read c) trivial
    rfl).step (.read c) trivial rfl).step (send "A") trivial rfl).step
      (.release "S1" none) trivial rfl
  exact ⟨[_], _, [_, _, _, _], _, c, _, htrail, rfl, rfl, rfl, by decide +kernel, by decide +kernel,
    ⟨_, List.mem_singleton_self _, by decide +kernel, by decide +kernel⟩, by decide +kernel,
    by decide +kernel, by decide +kernel, by decide +kernel, by decide +kernel, by decide +kernel⟩

end Trail

end EventRelay
