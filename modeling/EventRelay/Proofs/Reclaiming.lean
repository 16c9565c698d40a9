import EventRelay.Proofs.Stream

/-!
# Who comes back to a session

A session bears the metadata of the connection that made it, and the time at which it
lost its client, and both can be found in the past of a run: `Trail.origin` is the moment
at which the session was made, `Trail.parting` the moment at which its client was
disconnected. A claim is checked against these two, so `Trail.reclaims` can say what a
registration that gets a session back must have been, whatever came between.
-/

namespace EventRelay

namespace Place

/-! ## A session that nobody is admitted to -/

/-- How often clients have come back to the session, if there is one. -/
def returns (p : Place) : Nat := p.session.elim 0 fun s => s.reconnects.toNat

/-- The session is the one it was, but for its buffer. It has no client unless it had one,
and if it lost its client its retention begins. Nobody has come back to it. -/
structure Continues (t : Terms) (p q : Place) : Prop where
  slot : q.slot.isSome = true → p.slot.isSome = true
  returns : q.returns ≤ p.returns
  session : ∀ s', q.session = some s' → ∃ s, p.session = some s ∧ s'.metadata = s.metadata ∧
    (q.slot = none → s'.lastSeen = if p.slot.isSome then t.now else s.lastSeen)

variable {t : Terms} {p q r : Place}

theorem Continues.refl (t : Terms) (p : Place) : p.Continues t p := by
  refine ⟨id, Nat.le_refl _, ?_⟩
  intro s hs
  exact ⟨s, hs, rfl, fun hnone => by simp [hnone]⟩

theorem Continues.trans (hpq : p.Continues t q) (hqr : q.Continues t r) : p.Continues t r := by
  refine ⟨fun hr => hpq.slot (hqr.slot hr), hqr.returns.trans hpq.returns, ?_⟩
  intro s'' hs''
  obtain ⟨s', hs', hmeta', hseen'⟩ := hqr.session s'' hs''
  obtain ⟨s, hs, hmeta, hseen⟩ := hpq.session s' hs'
  refine ⟨s, hs, hmeta'.trans hmeta, ?_⟩
  intro hnone
  rw [hseen' hnone]
  cases hslot : q.slot with
  | none => exact hseen hslot
  | some slot =>
      have hheld := hpq.slot (by rw [hslot]; rfl)
      simp [hheld]

/-- The slot changed, but is still there. -/
theorem Continues.of_slot {slot : Slot} (hslot : p.slot = some slot) (slot' : Slot) :
    p.Continues t ⟨p.session, some slot'⟩ :=
  ⟨fun _ => by rw [hslot]; rfl, Nat.le_refl _, fun s hs => ⟨s, hs, rfl, nofun⟩⟩

theorem continues_vacate (p : Place) (t : Terms) : p.Continues t (p.vacate t) := by
  obtain ⟨session, slot⟩ := p
  cases slot with
  | none => exact .refl t _
  | some slot =>
      refine ⟨nofun, ?_, ?_⟩
      · cases session <;> exact Nat.le_refl _
      · intro s' hs'
        obtain ⟨s, hs, rfl⟩ := Option.map_eq_some_iff.mp hs'
        exact ⟨s, hs, rfl, fun _ => rfl⟩

theorem continues_inspect (p : Place) (t : Terms) : p.Continues t (p.inspect t) := by
  unfold inspect judge
  split
  · exact .refl t p
  · next slot hslot =>
      split
      · exact continues_vacate p t
      · exact .of_slot hslot _

theorem continues_read (p : Place) (c : ClientId) (t : Terms) : p.Continues t (p.read c) := by
  unfold read
  split
  · exact .refl t p
  · next slot hslot =>
      split
      · exact .refl t p
      · exact .of_slot (Option.filter_eq_some_iff.mp hslot).1 _

theorem continues_leave (p : Place) (c : ClientId) (t : Terms) : p.Continues t (p.leave c) := by
  unfold leave
  split
  · exact .refl t p
  · next slot hslot => exact .of_slot (Option.filter_eq_some_iff.mp hslot).1 _

theorem continues_expire (p : Place) (t : Terms) : p.Continues t (p.expire t) := by
  refine ⟨id, ?_, ?_⟩
  · obtain ⟨session, slot⟩ := p
    cases session with
    | none => exact Nat.le_refl _
    | some s =>
        cases hkept : s.expired t.sessions.ttl t.now <;>
          simp [returns, expire, Option.filter, hkept]
  · intro s hs
    exact ⟨s, (Option.filter_eq_some_iff.mp hs).1, rfl,
      fun hnone => by simp [show p.slot = none from hnone]⟩

theorem keeps_rest {scope : Scope} {e : Event} {s s' : Session} (hkeeps : scope.keeps e s s') :
    s'.metadata = s.metadata ∧ s'.lastSeen = s.lastSeen ∧ s'.reconnects = s.reconnects := by
  cases scope with
  | live =>
      obtain rfl : s' = s := hkeeps
      exact ⟨rfl, rfl, rfl⟩
  | everyone =>
      rw [(show s.Keeps e s' from hkeeps).rest]
      exact ⟨rfl, rfl, rfl⟩
  | sessions ids =>
      rw [(show s.Keeps e s' from hkeeps).rest]
      exact ⟨rfl, rfl, rfl⟩

theorem Meets.continues {scope : Scope} {e : Event} {f : Fate}
    (hm : Meets (scope.keeps e) e t f p q) : p.Continues t q := by
  cases hm with
  | kept hidle hkept =>
      obtain ⟨hmeta, hseen, hcount⟩ := keeps_rest hkept
      refine ⟨id, Nat.le_of_eq (congrArg UInt32.toNat hcount), ?_⟩
      rintro s' ⟨⟩
      exact ⟨_, rfl, hmeta, fun _ => hseen⟩
  | delivered hactive hreads hroom => exact .of_slot rfl _
  | dropped hactive hreads hfull hearly => exact .of_slot rfl _
  | handedOver hactive hover hkept =>
      obtain ⟨hmeta, hseen, hcount⟩ := keeps_rest hkept
      refine ⟨nofun, Nat.le_of_eq (congrArg UInt32.toNat hcount), ?_⟩
      rintro s' ⟨⟩
      exact ⟨_, rfl, hmeta, fun _ => hseen⟩

theorem Course.continues {scope : Scope} {e : Event} {fs : List Fate}
    (hc : Course (scope.keeps e) e t fs p q) : p.Continues t q := by
  induction hc with
  | nil p => exact .refl t p
  | cons hmeets hcourse ih => exact hmeets.continues.trans ih

end Place

namespace Hub

variable {h : Hub} {id : SessionId} {a : Act} {o : Outcome} {q : Place}

/-- Unless somebody is admitted to it a session goes on as it was, or ends. -/
theorem Step.continues (hstep : h.Step id a o q) (hadmits : ∀ c, o = .admitted c → c.session ≠ id) :
    (h.place id).Continues h.terms q := by
  cases hstep with
  | aside => exact .refl _ _
  | reclaimed => exact absurd rfl (hadmits _ rfl)
  | created => exact absurd rfl (hadmits _ rfl)
  | dispatched hs hlen hcourse => exact hcourse.continues
  | inspected => exact Place.continues_inspect _ _
  | read hc => exact Place.continues_read _ _ _
  | left hc => exact Place.continues_leave _ _ _
  | released hslot hclient => exact Place.continues_vacate _ _
  | stopped => exact Place.continues_vacate _ _
  | swept => exact Place.continues_expire _ _
  | looked => exact Place.continues_expire _ _

/-- No more than one client comes back to a session at a time. -/
theorem Step.returns_le {g : Registration} (hstep : h.Step id (.register g) o q) :
    q.returns ≤ (h.place id).returns + 1 := by
  have hanswered : ∀ (s : Session) (slot : Option Slot),
      (Place.answer ⟨some s, slot⟩ g h.terms).returns = s.reconnects.toNat := by
    intro s slot
    obtain ⟨s', hs', rfl | rfl⟩ := Place.answer_session s slot g h.terms <;>
      simp [Place.returns, hs', Session.disconnect]
  cases hstep with
  | aside => exact Nat.le_succ _
  | @reclaimed _ s hclaim hs =>
      have hbefore : (h.place id).returns = s.reconnects.toNat := by
        rw [Place.returns, show (h.place id).session = some s from hs]
        rfl
      rw [hanswered, hbefore]
      show (s.reconnects + 1).toNat ≤ _
      rw [UInt32.toNat_add]
      exact Nat.mod_le _ _
  | created hclaim hs =>
      rw [hanswered]
      exact Nat.zero_le _

/-- A session that nobody is admitted to keeps clear of a registration. -/
theorem Step.elsewhere {g : Registration} {c : Client}
    (hstep : h.Step id (.register g) (.admitted c) q) (hne : id ≠ c.session) : q = h.place id := by
  cases hstep with
  | aside => rfl
  | reclaimed => exact absurd rfl hne
  | created => exact absurd rfl hne

end Hub

namespace Broker

theorem enqueue_hub (b : Broker) (n : Ticket) (g : Registration) : (b.enqueue n g).hub = b.hub := by
  unfold enqueue
  split <;> rfl

theorem mem_enqueue (b : Broker) (n : Ticket) (g : Registration) :
    (n, g) ∈ (b.enqueue n g).registrations ++ (b.enqueue n g).lobby := by
  unfold enqueue
  split <;> simp

/-- A registration is refused at once, or joins its queue under the next serial number. It
claims what the caller presents or nothing, for the caller's metadata. -/
inductive Asked (b : Broker) (a : Arrival) : Broker × Except Refusal Ticket → Prop
  | refused {h : Hub} {r : Refusal} (hu : b.hub.Untouched h) (hregistry : h.registry = b.registry) :
      Asked b a ({ b with hub := h }, .error r)
  | queued {h : Hub} {g : Registration} (hu : b.hub.Untouched h)
      (hregistry : h.registry = b.registry)
      (hruns : b.isRunning = true) (hcandidate : g.candidate = a.session ∨ g.candidate = none)
      (hmetadata : g.metadata = a.metadata) (hclient : g.client = ⟨b.serial⟩)
      (habandoned : g.abandoned = false) :
      Asked b a (({ b with hub := h, serial := b.serial + 1 } : Broker).enqueue b.serial g,
        .ok b.serial)

theorem register_cases (b : Broker) (a : Arrival) (draws : List Draw) :
    b.Asked a (b.register a draws) := by
  have hnoted : ∀ n, (∀ id c, n ≠ .clientReplaced id c) → b.hub.Untouched (b.note n).hub :=
    fun n hn => Hub.untouched_note b.hub hn
  have hasked : ∀ (h : Hub) (g : Registration), b.hub.Untouched h → h.registry = b.registry →
      (g.candidate = a.session ∨ g.candidate = none) → g.metadata = a.metadata →
      g.client = ⟨b.serial⟩ → g.abandoned = false →
      b.Asked a (if b.isRunning then
        (({ b with hub := h, serial := b.serial + 1 } : Broker).enqueue b.serial g, .ok b.serial)
        else ({ b with hub := h }, .error .shutDown)) := by
    intro h g hu hregistry hcandidate hmetadata hclient habandoned
    split
    · next hruns => exact .queued hu hregistry hruns hcandidate hmetadata hclient habandoned
    · exact .refused hu hregistry
  unfold register
  split
  · exact .refused (hnoted _ fun _ _ => Notice.noConfusion) rfl
  cases hsession : a.session with
  | none => exact hasked b.hub _ (.refl _) rfl (Or.inr rfl) rfl rfl rfl
  | some id =>
      dsimp only
      split
      · exact hasked b.hub _ (.refl _) rfl (Or.inl hsession.symm) rfl rfl rfl
      · exact hasked _ _ (hnoted (.notReclaimable id) fun _ _ => Notice.noConfusion) rfl
          (Or.inr rfl)
          rfl rfl rfl

theorem register_ok {b b' : Broker} {a : Arrival} {draws : List Draw} {n : Ticket}
    (hok : b.register a draws = (b', .ok n)) : b.hub.Untouched b'.hub ∧
      ∃ g, (n, g) ∈ b'.registrations ++ b'.lobby ∧ (g.candidate = a.session ∨ g.candidate = none) ∧
        g.metadata = a.metadata ∧ g.abandoned = false := by
  have hasked := b.register_cases a draws
  rw [hok] at hasked
  cases hasked with
  | queued hu hregistry hruns hcandidate hmetadata hclient habandoned =>
      exact ⟨by rwa [enqueue_hub], _, mem_enqueue _ _ _, hcandidate, hmetadata, habandoned⟩

end Broker

/-! ## Looking for the moment -/

namespace Moment

variable (x : Moment)

/-- The connection was ended here. -/
def ends (c : Client) : Prop := c.id ∉ x.before.closed ∧ c.id ∈ x.after.closed

/-- The session was made here. -/
def makes (id : SessionId) (g : Registration) : Prop :=
  x.act = .register g ∧ ∃ c, x.outcome = .admitted c ∧ c.session = id ∧ c.reconnected = false

theorem registration {x : Moment} {c : Client} (hout : x.outcome = .admitted c) :
    ∃ g, x.act = .register g := by
  obtain ⟨a, h⟩ := x
  cases a with
  | register g => exact ⟨g, rfl⟩
  | _ => cases hout

end Moment

namespace Trail

variable {past later earlier : List Moment} {x : Moment} {h : Hub} {id : SessionId} {s : Session}

/-- Every session was made at some moment, by a registration whose metadata it bears, and
has been there since. -/
theorem origin (htrail : Trail past h) (hs : h.registry.find? id = some s) :
    ∃ newer x older g, past = newer ++ x :: older ∧ x.makes id g ∧ s.metadata = g.metadata ∧
      ∀ y ∈ newer, (y.before.registry.find? id).isSome = true := by
  induction htrail generalizing s with
  | start hempty hstart =>
      rw [(Broker.start_hub hstart).1, Registry.find?, hempty] at hs
      cases hs
  | @step past h htrail a hnew hfault ih =>
      have htrail' := htrail.step a hnew hfault
      have hcontinued : (∃ s₀, h.registry.find? id = some s₀ ∧ s.metadata = s₀.metadata) →
          ∃ newer x older g, (⟨a, h⟩ :: past : List Moment) = newer ++ x :: older ∧ x.makes id g ∧
            s.metadata = g.metadata ∧ ∀ y ∈ newer, (y.before.registry.find? id).isSome = true := by
        rintro ⟨s₀, hs₀, hmeta⟩
        obtain ⟨newer, x, older, g, rfl, hmakes, hbears, hthere⟩ := ih hs₀
        refine ⟨⟨a, h⟩ :: newer, x, older, g, rfl, hmakes, hmeta.trans hbears, ?_⟩
        intro y hy
        rcases List.mem_cons.mp hy with rfl | hy
        · rw [hs₀]
          rfl
        · exact hthere y hy
      by_cases hadmits : ∃ c, (h.act a).2 = .admitted c ∧ c.session = id
      · obtain ⟨c, hout, rfl⟩ := hadmits
        obtain ⟨g, hact⟩ := Moment.registration (x := ⟨a, h⟩) hout
        obtain ⟨s', hplace, -, -, hwhence⟩ := htrail'.admitted hact hout
        obtain ⟨s'', hs'', hsame⟩ := Place.answer_session s' _ g h.terms
        have hafter : s = s'' := Option.some.inj (hs.symm.trans
          ((congrArg Place.session hplace).trans hs''))
        have hmeta : s.metadata = s'.metadata := by
          rw [hafter]
          rcases hsame with rfl | rfl <;> rfl
        rcases hwhence with ⟨-, -, s₀, hs₀, rfl⟩ | ⟨hback, -, -, rfl⟩
        · exact hcontinued ⟨s₀, hs₀, hmeta⟩
        · exact ⟨[], ⟨a, h⟩, past, g, rfl, ⟨hact, c, hout, rfl, hback⟩, hmeta, by simp⟩
      · obtain ⟨s₀, hs₀, hmeta, -⟩ := ((htrail'.step_last id).continues
          (fun c hout hid => hadmits ⟨c, hout, hid⟩)).session s hs
        exact hcontinued ⟨s₀, hs₀, hmeta⟩
  | aside htrail hsame ih =>
      refine ih ?_
      rw [← hs, Registry.find?, Registry.find?, hsame.sessions]

/-- A new connection has not been ended before. -/
theorem not_closed_before (htrail : Trail (x :: past) h) {g : Registration} {c : Client}
    (hact : x.act = .register g) (hout : x.outcome = .admitted c) : c.id ∉ x.before.closed := by
  obtain ⟨hbefore, hnew, -, -⟩ := htrail.uncons
  obtain ⟨-, -, hname, -⟩ := htrail.admitted hact hout
  intro hclosed
  obtain ⟨c', hc', hsame⟩ := hbefore.sound.closed_known _ hclosed
  rw [hact] at hnew
  exact hnew c' hc' (hsame.trans hname)

/-- A connection whose session is left without a client has been ended. -/
theorem closed_of_none (htrail : Trail past h) {c : Client}
    (hc : c ∈ handles (past.map Moment.occurrence))
    (hnone : Table.get? h.clients c.session = none) :
    c.id ∈ h.closed := by
  rw [htrail.sound.closed_iff c hc]
  rintro ⟨slot, hslot, -⟩
  cases hnone.symm.trans hslot

/-- A session without a client lost it at some moment, its retention began then, and there
was none since. -/
theorem parting (htrail : Trail past h) (hs : h.registry.find? id = some s)
    (hslot : Table.get? h.clients id = none) :
    ∃ newer x older c, past = newer ++ x :: older ∧
      c ∈ handles ((x :: older).map Moment.occurrence) ∧
      c.session = id ∧ x.ends c ∧ s.lastSeen = x.time ∧
      ∀ y ∈ newer, Table.get? y.before.clients id = none := by
  induction htrail generalizing s with
  | start hempty hstart =>
      rw [(Broker.start_hub hstart).1, Registry.find?, hempty] at hs
      cases hs
  | @step past h htrail a hnew hfault ih =>
      have htrail' := htrail.step a hnew hfault
      by_cases hadmits : ∃ c, (h.act a).2 = .admitted c ∧ c.session = id
      · -- whoever was admitted here was disconnected at once
        obtain ⟨c, hout, rfl⟩ := hadmits
        obtain ⟨g, hact⟩ := Moment.registration (x := ⟨a, h⟩) hout
        obtain ⟨s', hplace, -, -, -⟩ := htrail'.admitted hact hout
        have hc : c ∈ handles ((⟨a, h⟩ :: past).map Moment.occurrence) := handles_admitted hout
        refine ⟨[], ⟨a, h⟩, past, c, rfl, hc, rfl,
          ⟨htrail'.not_closed_before hact hout, htrail'.closed_of_none hc hslot⟩, ?_, by simp⟩
        have hs' := (congrArg Place.session hplace).symm.trans hs
        have hslot' := (congrArg Place.slot hplace).symm.trans hslot
        unfold Place.answer at hs' hslot'
        split at hs'
        · obtain rfl := Option.some.inj hs'
          rfl
        · next habandoned =>
            rw [if_neg habandoned] at hslot'
            cases hslot'
      · have hgoes := (htrail'.step_last id).continues (fun c hout hid => hadmits ⟨c, hout, hid⟩)
        obtain ⟨s₀, hs₀, -, hseen⟩ := hgoes.session s hs
        have hseen := hseen hslot
        cases hslot₀ : Table.get? h.clients id with
        | some slot =>
            obtain ⟨c, hc, rfl, hname⟩ := htrail.sound.owned id slot hslot₀
            have hc' := handles_append [⟨a, h⟩] hc
            refine ⟨[], ⟨a, h⟩, past, c, rfl, hc', rfl, ⟨?_, htrail'.closed_of_none hc' hslot⟩, ?_,
              by simp⟩
            · intro hclosed
              exact (htrail.sound.closed_iff c hc).mp hclosed ⟨slot, hslot₀, hname.symm⟩
            · rw [hseen, Hub.place, hslot₀]
              rfl
        | none =>
            obtain ⟨newer, x, older, c, rfl, hc, hid, hends, htime, hfree⟩ := ih hs₀ hslot₀
            refine ⟨⟨a, h⟩ :: newer, x, older, c, rfl, hc, hid, hends, ?_, ?_⟩
            · rw [hseen, Hub.place, hslot₀]
              exact htime
            · intro y hy
              rcases List.mem_cons.mp hy with rfl | hy
              · exact hslot₀
              · exact hfree y hy
  | aside htrail hsame ih =>
      refine ih ?_ ?_
      · rw [← hs, Registry.find?, Registry.find?, hsame.sessions]
      · rw [← hslot, hsame.clients]

/-! ## Claims -/

/-- A session that was taken back was free, had not expired, and was claimed by the user
agent that made it if that matters. -/
theorem reclaimed (htrail : Trail (x :: past) h) {g : Registration} {c : Client}
    (hact : x.act = .register g) (hout : x.outcome = .admitted c) (hback : c.reconnected = true) :
    g.candidate = some c.session ∧ Table.get? x.before.clients c.session = none ∧
    ∃ s, x.before.registry.find? c.session = some s ∧ s.active = false ∧
      x.time - s.lastSeen ≤ x.before.registry.config.ttl ∧
      (x.before.registry.config.strictBinding = true →
        s.metadata.userAgent = g.metadata.userAgent) := by
  obtain ⟨-, -, -, -, ⟨-, hclaim, -⟩ | ⟨hnew, -⟩⟩ := htrail.admitted hact hout
  · obtain ⟨hcand, hfree, s, hs, hidle, hintime, hbinding⟩ := Hub.claim?_eq_some x.before hclaim
    refine ⟨hcand, hfree, s, hs, hidle, ?_, hbinding⟩
    rw [Registry.isExpired, Session.expired, hidle, Bool.not_false, Bool.true_and,
      decide_eq_false_iff_not] at hintime
    exact Nat.le_of_not_lt hintime
  · cases hback.symm.trans hnew

/-- The session that a client is admitted to has no client before. -/
theorem free_before (htrail : Trail (x :: past) h) {g : Registration} {c : Client}
    (hact : x.act = .register g) (hout : x.outcome = .admitted c) :
    Table.get? x.before.clients c.session = none := by
  obtain ⟨-, -, -, -, ⟨hback, -⟩ | ⟨-, -, hnone, -⟩⟩ := htrail.admitted hact hout
  · exact (htrail.reclaimed hact hout hback).2.1
  · exact htrail.uncons.1.sound.free hnone

/-- Whoever was admitted is connected, unless the caller had gone away. -/
theorem not_closed_after (htrail : Trail (x :: past) h) {g : Registration} {c : Client}
    (hact : x.act = .register g) (hout : x.outcome = .admitted c) (hstays : g.abandoned = false) :
    c.id ∉ x.after.closed := by
  obtain ⟨s, hplace, hname, -⟩ := htrail.admitted hact hout
  have hserves : x.after.Serves c := by
    rw [Place.answer, hstays] at hplace
    exact ⟨_, congrArg Place.slot hplace, hname.symm⟩
  rw [htrail.last.sound.closed_iff c (handles_admitted hout)]
  exact fun hno => hno hserves

/-- Between two admissions to one session the first connection was ended. -/
theorem ended_between {mid older : List Moment} {y : Moment}
    (htrail : Trail (x :: (mid ++ y :: older)) h) {g g' : Registration} {c c' : Client}
    (hact : x.act = .register g) (hout : x.outcome = .admitted c) (hact' : y.act = .register g')
    (hout' : y.outcome = .admitted c') (hid : c'.session = c.session) :
    ∃ z ∈ mid ++ [y], z.ends c' ∧ (g'.abandoned = false → z ∈ mid) := by
  have hbefore := htrail.uncons.1
  have hclosed : c'.id ∈ x.before.closed :=
    hbefore.closed_of_none (handles_append _ (handles_admitted hout'))
      (hid ▸ htrail.free_before hact hout)
  -- the first connection is not over when it begins, and is at `x`: look for the turn
  obtain ⟨newer, z, older', hsplit, hends⟩ := turning_point (P := fun h => c'.id ∈ h.closed)
    (fun _ _ hu hmem => hu.closed ▸ hmem) hbefore
      (hbefore.cut.not_closed_before hact' hout') hclosed
  have hz : z ∈ mid ++ [y] := by
    rw [hsplit]
    exact List.mem_append_right _ (List.mem_cons_self ..)
  refine ⟨z, hz, hends, ?_⟩
  intro hstays
  rcases List.mem_append.mp hz with hmid | hlast
  · exact hmid
  · obtain rfl := List.mem_singleton.mp hlast
    exact absurd hends.2 (hbefore.cut.not_closed_after hact' hout' hstays)

/-- Who did not get a session back got a new one, and changed nothing else. -/
theorem new_session (htrail : Trail (x :: past) h) {g : Registration} {c : Client}
    (hact : x.act = .register g) (hout : x.outcome = .admitted c) (hnew : c.reconnected = false) :
    x.before.registry.find? c.session = none ∧ c.replayed = 0 ∧
    (∃ s, x.after.registry.find? c.session = some s ∧ s.missed = [] ∧ s.buffer.length = 0 ∧
      (g.abandoned = false → s.active = true)) := by
  obtain ⟨s, hplace, -, hcount, ⟨hback, -⟩ | ⟨-, -, hnone, rfl⟩⟩ := htrail.admitted hact hout
  · cases hback.symm.trans hnew
  · refine ⟨hnone, hcount, ?_⟩
    unfold Place.answer at hplace
    split at hplace
    · next habandoned =>
        refine ⟨_, congrArg Place.session hplace, rfl, rfl, ?_⟩
        intro hstays
        cases habandoned.symm.trans hstays
    · exact ⟨_, congrArg Place.session hplace, rfl, rfl, fun _ => rfl⟩

/-- **Who comes back to a session.** A registration gets a session back only if it presents
it, nobody holds it, its last client was disconnected no longer ago than the time to live,
and, with strict binding, the session was made for the same user agent. Between two
admissions to one session the first client is disconnected. Whoever gets no session back
gets a new one with nothing in its buffer, and no other session is touched. What a caller
presents to the broker is all that its registration claims. -/
theorem reclaims (htrail : Trail (x :: earlier) h) {g : Registration} {c : Client}
    (hact : x.act = .register g) (hout : x.outcome = .admitted c) :
    (c.reconnected = true →
      g.candidate = some c.session ∧ Table.get? x.before.clients c.session = none ∧
      (∃ s, x.before.registry.find? c.session = some s ∧ s.active = false) ∧
      (∃ newer y older c', earlier = newer ++ y :: older ∧
        c' ∈ handles ((y :: older).map Moment.occurrence) ∧ c'.session = c.session ∧ y.ends c' ∧
        (∀ z ∈ newer, Table.get? z.before.clients c.session = none) ∧
        x.time - y.time ≤ x.before.registry.config.ttl) ∧
      (x.before.registry.config.strictBinding = true →
        ∃ newer y older g₀, earlier = newer ++ y :: older ∧ y.makes c.session g₀ ∧
          (∀ z ∈ newer, (z.before.registry.find? c.session).isSome = true) ∧
          g₀.metadata.userAgent = g.metadata.userAgent)) ∧
    (∀ mid y older g' c', earlier = mid ++ y :: older → y.act = .register g' →
      y.outcome = .admitted c' → c'.session = c.session →
      ∃ z ∈ mid ++ [y], z.ends c' ∧ (g'.abandoned = false → z ∈ mid)) ∧
    (c.reconnected = false → x.before.registry.find? c.session = none ∧ c.replayed = 0 ∧
      ∃ s, x.after.registry.find? c.session = some s ∧ s.missed = [] ∧ s.buffer.length = 0 ∧
        (g.abandoned = false → s.active = true)) ∧
    (∀ id, id ≠ c.session → x.after.place id = x.before.place id) ∧
    ∀ (b b' : Broker) (a : Arrival) (draws : List Draw) (n : Ticket),
      b.register a draws = (b', .ok n) → b.hub.Untouched b'.hub ∧
        ∃ g, (n, g) ∈ b'.registrations ++ b'.lobby ∧
          (g.candidate = a.session ∨ g.candidate = none) ∧
          g.metadata = a.metadata ∧ g.abandoned = false := by
  refine ⟨?_, ?_, htrail.new_session hact hout, ?_, fun _ _ _ _ _ => Broker.register_ok⟩
  · intro hback
    obtain ⟨hcand, hfree, s, hs, hidle, hintime, hbinding⟩ := htrail.reclaimed hact hout hback
    have hbefore := htrail.uncons.1
    refine ⟨hcand, hfree, ⟨s, hs, hidle⟩, ?_, ?_⟩
    · obtain ⟨newer, y, older, c', hsplit, hc', hid, hends, hseen, hnone⟩ :=
        hbefore.parting hs hfree
      exact ⟨newer, y, older, c', hsplit, hc', hid, hends, hnone, hseen ▸ hintime⟩
    · intro hstrict
      obtain ⟨newer, y, older, g₀, hsplit, hmakes, hbears, hthere⟩ := hbefore.origin hs
      exact ⟨newer, y, older, g₀, hsplit, hmakes, hthere, hbears ▸ hbinding hstrict⟩
  · rintro mid y older g' c' rfl hact' hout' hid
    exact htrail.ended_between hact hout hact' hout' hid
  · intro id hne
    have hstep := htrail.step_last id
    rw [hact, hout] at hstep
    exact hstep.elsewhere hne

/-- A client is disconnected and comes back in time, with strict binding. -/
theorem reclaims_in_time : ∃ earlier x h c, Trail (x :: earlier) h ∧ x.outcome = .admitted c ∧
    c.reconnected = true ∧ ∃ newer y older c', earlier = newer ++ y :: older ∧ y.ends c' ∧
      x.time - y.time ≤ x.before.registry.config.ttl := by
  let back : Client := ⟨⟨2⟩, "S1", true, 0⟩
  have htrail := ((((opened {} { strictBinding := true } (by decide)).step
    (.register (.numbered 1 none none [.ok "S1"])) (by decide +kernel) (by decide +kernel)).step
    (.release "S1" none) trivial rfl).step (.wait 1000) trivial rfl).step
    (.register (.numbered 2 (some "S1") none [])) (by decide +kernel) (by decide +kernel)
  obtain ⟨earlier, x, h, htrail, hact, hout⟩ : ∃ earlier x h, Trail (x :: earlier) h ∧
      x.act = .register (.numbered 2 (some "S1") none []) ∧ x.outcome = .admitted back :=
    ⟨_, _, _, htrail, rfl, Moment.handle?_eq_some.mp (by decide +kernel)⟩
  obtain ⟨-, -, -, ⟨newer, y, older, c', hsplit, -, -, hends, -, htime⟩, -⟩ :=
    (reclaims htrail hact hout).1 rfl
  exact ⟨_, _, _, back, htrail, hout, rfl, newer, y, older, c', hsplit, hends, htime⟩

end Trail

end EventRelay
