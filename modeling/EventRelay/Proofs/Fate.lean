import EventRelay.Proofs.Sound

/-!
# What becomes of an event

`Place.Meets` lists the fates of an event at one session, with the condition for each
and all that it changes: kept in the buffer of a session that nobody holds, delivered
to the client, dropped because the client's queue is full, or taken from a client
that is disconnected. The conditions exclude each other (`Place.Meets.unique`), so an
event meets exactly one of them each time it is sent to the session.

`Run.dispatch_fate` says this of every message at every point of every run. What a
message to live clients does not do is keep anything: that is the parameter `keeps` of
`Place.Meets`.
-/

namespace EventRelay

/-! ## Keeping an event -/

/-- The session keeps the event as its newest one, and changes in nothing else. A
session without capacity keeps nothing. -/
structure Session.Keeps (e : Event) (s s' : Session) : Prop where
  newest : 0 < s.buffer.capacity → s'.missed = s.missed.rtake (s.buffer.capacity - 1) ++ [e]
  nothing : s.buffer.capacity = 0 → s'.missed = []
  capacity : s'.buffer.capacity = s.buffer.capacity
  rest : s' = { s with buffer := s'.buffer, unacknowledged := s'.unacknowledged }

theorem Session.Wf.keeps_miss {s : Session} (hwf : s.Wf) (e : Event) : s.Keeps e (s.miss e).1 where
  newest hpos := by
    obtain ⟨n, hn⟩ := Nat.exists_eq_succ_of_ne_zero (Nat.ne_of_gt hpos)
    rw [hwf.missed_miss, hn, List.rtake_concat_succ, Nat.succ_sub_one]
  nothing hzero := by rw [hwf.missed_miss, hzero, List.rtake_zero]
  capacity := s.miss_capacity e
  rest := rfl

/-- What a message of some scope does to a session that nobody holds. -/
def Scope.keeps (scope : Scope) (e : Event) : Session → Session → Prop :=
  match scope with
  | .live => fun s s' => s' = s
  | _ => Session.Keeps e

/-! ## Offers that find no room -/

namespace Slot

variable {s : Slot}

theorem offer_gone (hgone : s.channel.attended = false) (e : Event) (patience now : Nat) :
    s.offer e patience now = (s, .gone) := by
  unfold offer
  rw [hgone]
  rfl

theorem offer_full (hreads : s.channel.attended = true) (hfull : s.channel.isFull = true)
    (e : Event) (patience now : Nat) :
    s.offer e patience now
      = (s.stall now, if s.stalledFor patience now then .unresponsive else .dropped) := by
  unfold offer
  rw [hreads, hfull]
  rfl

end Slot

/-! ## The fates -/

/-- What becomes of an event at one session. -/
inductive Fate where
  /-- Nobody holds the session. The event is for its buffer. -/
  | kept
  /-- The event joined the client's queue. -/
  | delivered
  /-- The client's queue is full, and the client has time left to read. -/
  | dropped
  /-- The client does not read and was disconnected. The event is for the buffer. -/
  | handedOver
  deriving DecidableEq

namespace Place

/-- The conditions and the effects of each fate. -/
inductive Meets (keeps : Session → Session → Prop) (e : Event) (t : Terms) :
    Fate → Place → Place → Prop
  | kept {s s' : Session} (hidle : s.active = false) (hkept : keeps s s') :
      Meets keeps e t .kept ⟨some s, none⟩ ⟨some s', none⟩
  | delivered {s : Session} {slot : Slot} (hactive : s.active = true)
      (hreads : slot.channel.attended = true) (hroom : slot.channel.isFull = false) :
      Meets keeps e t .delivered ⟨some s, some slot⟩ ⟨some s, some (slot.taking [e] t.now)⟩
  | dropped {s : Session} {slot : Slot} (hactive : s.active = true)
      (hreads : slot.channel.attended = true) (hfull : slot.channel.isFull = true)
      (hearly : slot.stalledFor t.config.patience t.now = false) :
      Meets keeps e t .dropped ⟨some s, some slot⟩ ⟨some s, some (slot.stall t.now)⟩
  | handedOver {s s' : Session} {slot : Slot} (hactive : s.active = true)
      (hover : slot.channel.attended = false ∨
        slot.channel.isFull = true ∧ slot.stalledFor t.config.patience t.now = true)
      (hkept : keeps (s.disconnect t.now) s') :
      Meets keeps e t .handedOver ⟨some s, some slot⟩ ⟨some s', none⟩

/-- One fate after another, for an event that is sent to a session several times. -/
inductive Course (keeps : Session → Session → Prop) (e : Event) (t : Terms) :
    List Fate → Place → Place → Prop
  | nil (p : Place) : Course keeps e t [] p p
  | cons {f : Fate} {fs : List Fate} {p q r : Place} (hmeets : Meets keeps e t f p q)
      (hcourse : Course keeps e t fs q r) : Course keeps e t (f :: fs) p r

variable {keeps : Session → Session → Prop} {e : Event} {t : Terms} {p p' q q' : Place}

theorem tell_none (hslot : p.slot = none) (e : Event) : p.tell e t = p := by
  unfold tell judge
  rw [hslot]

theorem tell_some (session : Option Session) (slot : Slot) (e : Event) :
    tell ⟨session, some slot⟩ e t
      = if (slot.offer e t.config.patience t.now).2.isFatal
        then ⟨session.map (·.disconnect t.now), none⟩
        else ⟨session, some (slot.offer e t.config.patience t.now).1⟩ := rfl

/-! ## One fate at most -/

/-- The fate of an event that is sent to the place. -/
def fate (p : Place) (t : Terms) : Fate :=
  match p.slot with
  | none => .kept
  | some slot =>
    if !slot.channel.attended then .handedOver
    else if slot.channel.isFull then
      if slot.stalledFor t.config.patience t.now then .handedOver else .dropped
    else .delivered

/-- The conditions of the fates exclude each other. -/
theorem Meets.unique {f : Fate} (hm : Meets keeps e t f p q) : f = p.fate t := by
  cases hm with
  | kept hidle hkept => rfl
  | delivered hactive hreads hroom =>
      simp only [fate, hreads, hroom, Bool.not_true, Bool.false_eq_true, if_false]
  | dropped hactive hreads hfull hearly =>
      simp only [fate, hreads, hfull, hearly, Bool.not_true, Bool.false_eq_true, if_false, if_true]
  | handedOver hactive hover hkept =>
      rcases hover with hgone | ⟨hfull, hlate⟩
      · simp only [fate, hgone, Bool.not_false, if_true]
      · simp only [fate, hfull, hlate, if_true, ite_self]

theorem Meets.slot_eq {f : Fate} (hm : Meets keeps e t f p q) (hm' : Meets keeps e t f p' q')
    (hslot : p.slot = p'.slot) : q.slot = q'.slot := by
  cases hm with
  | kept => cases hm'; rfl
  | delivered =>
      cases hm'
      obtain rfl := Option.some.inj hslot
      rfl
  | dropped =>
      cases hm'
      obtain rfl := Option.some.inj hslot
      rfl
  | handedOver => cases hm'; rfl

theorem Course.unique {fs fs' : List Fate} (hc : Course keeps e t fs p q)
    (hc' : Course keeps e t fs' p' q') (hslot : p.slot = p'.slot) (hlen : fs.length = fs'.length) :
    fs = fs' := by
  induction hc generalizing fs' p' with
  | nil p => exact (List.length_eq_zero_iff.mp hlen.symm).symm
  | cons hmeets hcourse ih =>
      cases hc' with
      | nil => cases hlen
      | cons hmeets' hcourse' =>
          have hf := hmeets.unique
          have hf' := hmeets'.unique
          rw [fate, hslot, ← fate, ← hf'] at hf
          subst hf
          rw [ih hcourse' (hmeets.slot_eq hmeets' hslot) (Nat.succ.inj hlen)]

/-! ## One fate at least -/

theorem Held.active_eq {s : Session} (hheld : p.Held) (hs : p.session = some s) :
    s.active = p.slot.isSome := by
  rw [Bool.eq_iff_iff]
  constructor
  · intro hactive
    exact hheld.mpr ⟨s, hs, hactive⟩
  · intro hslot
    obtain ⟨s', hs', hactive⟩ := hheld.mp hslot
    exact Option.some.inj (hs.symm.trans hs') ▸ hactive

/-- An event that is only offered meets its fate, and no buffer changes. -/
theorem Held.meets_tell {s : Session} (hheld : p.Held) (hs : p.session = some s) (e : Event) :
    Meets (fun s s' => s' = s) e t (p.fate t) p (p.tell e t) := by
  have hactive := hheld.active_eq hs
  obtain ⟨session, slot⟩ := p
  obtain rfl : session = some s := hs
  cases slot with
  | none => exact .kept hactive rfl
  | some slot =>
      cases hreads : slot.channel.attended with
      | false =>
          simp only [fate, hreads, tell_some, Slot.offer_gone hreads, Bool.not_false, if_true]
          exact .handedOver hactive (Or.inl hreads) rfl
      | true =>
          cases hfull : slot.channel.isFull with
          | false =>
              have hroom : slot.channel.queue.length < slot.channel.capacity :=
                Nat.lt_of_not_le (of_decide_eq_false hfull)
              simp only [fate, hreads, hfull, tell_some, Slot.offer_room hreads hroom,
                Bool.not_true, Bool.false_eq_true, if_false]
              exact .delivered hactive hreads hfull
          | true =>
              cases hlate : slot.stalledFor t.config.patience t.now with
              | false =>
                  simp only [fate, hreads, hfull, hlate, tell_some, Slot.offer_full hreads hfull,
                    Bool.not_true, Bool.false_eq_true, if_false, if_true]
                  exact .dropped hactive hreads hfull hlate
              | true =>
                  simp only [fate, hreads, hfull, hlate, tell_some, Slot.offer_full hreads hfull,
                    Bool.not_true, Bool.false_eq_true, if_false, if_true]
                  exact .handedOver hactive (Or.inr ⟨hfull, hlate⟩) rfl

/-- An event that is also kept for who does not hold its session meets the same fate. -/
theorem Held.meets_receive {s : Session} (hheld : p.Held) (hs : p.session = some s) (e : Event) :
    Meets (fun s s' => s' = (s.miss e).1) e t (p.fate t) p (p.receive e t) := by
  have hmeets := hheld.meets_tell (t := t) hs e
  show Meets _ e t (p.fate t) p ((p.tell e t).keep e)
  generalize p.fate t = f, p.tell e t = q at hmeets
  cases hmeets with
  | kept hidle hkept =>
      subst hkept
      simp only [Place.keep, Option.map_some, hidle, Bool.false_eq_true, if_false]
      exact .kept hidle rfl
  | delivered hactive hreads hroom =>
      simp only [Place.keep, Option.map_some, hactive, if_true]
      exact .delivered hactive hreads hroom
  | dropped hactive hreads hfull hearly =>
      simp only [Place.keep, Option.map_some, hactive, if_true]
      exact .dropped hactive hreads hfull hearly
  | handedOver hactive hover hkept =>
      subst hkept
      exact .handedOver hactive hover rfl

/-- At a sound place what is kept may be described as for any well-formed session. -/
theorem Meets.imp {n : Nat} {keeps' : Session → Session → Prop} {f : Fate} (hp : p.Sound n)
    (himp : ∀ s s', s.Wf → keeps s s' → keeps' s s') (hm : Meets keeps e t f p q) :
    Meets keeps' e t f p q := by
  cases hm with
  | kept hidle hkept => exact .kept hidle (himp _ _ (hp.wf _ rfl).1 hkept)
  | delivered hactive hreads hroom => exact .delivered hactive hreads hroom
  | dropped hactive hreads hfull hearly => exact .dropped hactive hreads hfull hearly
  | handedOver hactive hover hkept =>
      exact .handedOver hactive hover (himp _ _ ((hp.wf _ rfl).1.disconnect t.now) hkept)

theorem Meets.session {f : Fate} (hm : Meets keeps e t f p q) : ∃ s, q.session = some s := by
  cases hm <;> exact ⟨_, rfl⟩

/-- An event that is sent `m` times meets `m` fates. -/
theorem Sound.course_receive {n : Nat} {s : Session} (hp : p.Sound n) (hs : p.session = some s)
    (e : Event) (m : Nat) : ∃ fs : List Fate, fs.length = m ∧
      Course (Session.Keeps e) e t fs p ((fun p => p.receive e t)^[m] p) := by
  induction m generalizing p s with
  | zero => exact ⟨[], rfl, .nil p⟩
  | succ m ih =>
      have hmeets : Meets (Session.Keeps e) e t (p.fate t) p (p.receive e t) :=
        (hp.held.meets_receive hs e).imp hp fun s s' hwf (heq : s' = (s.miss e).1) =>
          heq ▸ hwf.keeps_miss e
      obtain ⟨s', hs'⟩ := hmeets.session
      obtain ⟨fs, hlen, hcourse⟩ := ih (hp.receive e) hs'
      exact ⟨p.fate t :: fs, congrArg (· + 1) hlen, .cons hmeets hcourse⟩

theorem receive_absent (hs : p.session = none) (hheld : p.Held) (e : Event) :
    p.receive e t = p := by
  obtain ⟨session, slot⟩ := p
  obtain rfl : session = none := hs
  cases slot with
  | none => rfl
  | some slot =>
      obtain ⟨s, hs, -⟩ := hheld.mp rfl
      cases hs

theorem Course.eq_of_nil (hc : Course keeps e t [] p q) : p = q := by
  cases hc
  rfl

/-- A client that keeps its session through all of this is the same client. -/
theorem Course.client {fs : List Fate} {slot' : Slot} (hc : Course keeps e t fs p q)
    (hq : q.slot = some slot') : ∃ slot, p.slot = some slot ∧ slot.client = slot'.client := by
  induction hc with
  | nil p => exact ⟨slot', hq, rfl⟩
  | cons hmeets hcourse ih =>
      obtain ⟨slot, hslot, hclient⟩ := ih hq
      cases hmeets with
      | kept => cases hslot
      | delivered =>
          obtain rfl := Option.some.inj hslot
          exact ⟨_, rfl, hclient⟩
      | dropped =>
          obtain rfl := Option.some.inj hslot
          exact ⟨_, rfl, hclient⟩
      | handedOver => cases hslot

end Place

/-! ## Messages -/

namespace Hub

variable {hs : List Client} {h : Hub}

/-- A message is an event sent to each session as often as the message asks for it. -/
theorem Sound.course_dispatch (hS : h.Sound hs) (m : Message) {id : SessionId} {s : Session}
    (hs : h.registry.find? id = some s) : ∃ fs : List Fate, fs.length = m.scope.copies id ∧
      Place.Course (m.scope.keeps m.event) m.event h.terms fs (h.place id)
        ((h.dispatch m).place id) := by
  obtain ⟨e, scope⟩ := m
  have hheld : ∀ id, (h.place id).Held := fun id => (hS.place id).held
  cases scope with
  | everyone =>
      rw [place_dispatch h hS.clients_nodup hheld Scope.noConfusion]
      exact (hS.place id).course_receive hs e _
  | live =>
      rw [place_dispatch_live h hS.clients_nodup]
      exact ⟨_, rfl, .cons ((hheld id).meets_tell hs e) (.nil _)⟩
  | sessions ids =>
      rw [place_dispatch h hS.clients_nodup hheld Scope.noConfusion]
      exact (hS.place id).course_receive hs e _

theorem Sound.dispatch_absent (hS : h.Sound hs) (m : Message) {id : SessionId}
    (hs : h.registry.find? id = none) : (h.dispatch m).place id = h.place id := by
  have hheld : ∀ id, (h.place id).Held := fun id => (hS.place id).held
  by_cases hlive : m.scope = .live
  · obtain ⟨e, scope⟩ := m
    obtain rfl : scope = .live := hlive
    rw [place_dispatch_live h hS.clients_nodup]
    exact Place.tell_none (hS.free hs) e
  · rw [place_dispatch h hS.clients_nodup hheld hlive]
    exact Function.iterate_fixed (Place.receive_absent hs (hheld id) m.event) _

/-- A client loses its session to a message exactly if it is told so. -/
theorem Sound.closed_dispatch (hS : h.Sound hs) (m : Message) {id : SessionId} {slot : Slot}
    (hslot : Table.get? h.clients id = some slot) :
    slot.client ∈ (h.dispatch m).closed ↔ Table.get? (h.dispatch m).clients id = none := by
  obtain ⟨c, hc, rfl, hname⟩ := hS.owned id slot hslot
  obtain ⟨s, hs, -⟩ := (hS.place c.session).held.mp (Option.isSome_iff_exists.mpr ⟨slot, hslot⟩)
  obtain ⟨fs, -, hcourse⟩ := hS.course_dispatch m hs
  rw [← hname, (hS.dispatch m).closed_iff c hc, Serves]
  constructor
  · intro hno
    refine Option.eq_none_iff_forall_not_mem.mpr ?_
    intro slot' hslot'
    refine hno ⟨slot', hslot', ?_⟩
    obtain ⟨slot₀, hslot₀, hsame⟩ := hcourse.client hslot'
    obtain rfl := Option.some.inj (hslot.symm.trans hslot₀)
    exact hsame.symm.trans hname.symm
  · rintro hnone ⟨slot', hslot', -⟩
    cases hnone.symm.trans hslot'

end Hub

/-- **Every event has one fate per session.** At every point of every run, for every
message and every session: a session that exists goes through exactly one course of
fates, one for each time the message asks for it; the course of a message to live
clients keeps nothing; a session that does not exist, or is not asked for, is left as
it is; and a client is told that its connection is over exactly if it lost its place. -/
theorem Run.dispatch_fate {past : List Occurrence} {h : Hub} (hrun : Run past h) (m : Message)
    (id : SessionId) :
    (∀ s, h.registry.find? id = some s → ∃! fs : List Fate, fs.length = m.scope.copies id ∧
      Place.Course (m.scope.keeps m.event) m.event h.terms fs (h.place id)
        ((h.dispatch m).place id)) ∧
    (h.registry.find? id = none ∨ m.scope.copies id = 0 →
      (h.dispatch m).place id = h.place id) ∧
    (∀ slot, Table.get? h.clients id = some slot →
      (slot.client ∈ (h.dispatch m).closed ↔ Table.get? (h.dispatch m).clients id = none)) := by
  have hS := hrun.sound
  refine ⟨?_, ?_, ?_⟩
  · intro s hs
    obtain ⟨fs, hlen, hcourse⟩ := hS.course_dispatch m hs
    refine ⟨fs, ⟨hlen, hcourse⟩, ?_⟩
    rintro fs' ⟨hlen', hcourse'⟩
    exact hcourse'.unique hcourse rfl (hlen'.trans hlen.symm)
  · intro hnot
    by_cases hs : h.registry.find? id = none
    · exact hS.dispatch_absent m hs
    · -- the session exists and is not asked for, so its course has no fates
      obtain ⟨s, hs⟩ := Option.ne_none_iff_exists'.mp hs
      obtain ⟨fs, hlen, hcourse⟩ := hS.course_dispatch m hs
      rw [hnot.resolve_left (by rw [hs]; exact Option.some_ne_none s)] at hlen
      obtain rfl := List.length_eq_zero_iff.mp hlen
      exact hcourse.eq_of_nil.symm
  · intro slot hslot
    exact hS.closed_dispatch m hslot

/-- A message that names one session twice. -/
def Message.twice : Message := ⟨⟨"A", "news", [], false⟩, .sessions ["S1", "S2", "S1"]⟩

/-- Its event has two fates there, here at a session whose client has gone away. -/
theorem dispatch_fate_twice : ∃ past h s, Run past h ∧ h.registry.find? "S1" = some s ∧
    ∃! fs : List Fate, fs.length = 2 ∧
      Place.Course (Session.Keeps Message.twice.event) Message.twice.event h.terms fs (h.place "S1")
        ((h.dispatch Message.twice).place "S1") := by
  have hknown : ((play [.register (.numbered 1 none none [.ok "S1"]), .leave ⟨⟨1⟩, "S1", false, 0⟩]
      ([], Hub.opened {} {})).bind fun s => s.2.registry.find? "S1").isSome = true := by
    decide +kernel
  obtain ⟨s, hsome⟩ := Option.isSome_iff_exists.mp hknown
  obtain ⟨⟨past, h⟩, hplay, hs⟩ := Option.bind_eq_some_iff.mp hsome
  have hrun : Run past h := Run.play (Run.opened (by decide) {}) hplay
  exact ⟨past, h, s, hrun, hs, (Run.dispatch_fate hrun Message.twice "S1").1 s hs⟩

end EventRelay
