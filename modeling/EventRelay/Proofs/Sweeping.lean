import EventRelay.Proofs.Later
import EventRelay.Proofs.Retention

/-!
# What the background sweep leaves

While time passes smoothly the background sweep runs on time, once a period, and a session
without a client that it leaves had not expired then (`Registry.Tended`). So nothing is kept
for longer than its time to live and one period (`Tended.bound`). `Trail.retention_window`
puts this beside the other end of the window: nothing is lost earlier.
-/

namespace EventRelay

/-! ## The timer -/

namespace Broker

variable {b b' : Broker} {o : Option Act}

theorem Asked.registry {arrival : Arrival} {result : Broker × Except Refusal Ticket}
    (hasked : b.Asked arrival result) : result.1.registry = b.registry := by
  cases hasked with
  | refused _ hregistry => exact hregistry
  | queued _ hregistry => exact (congrArg Hub.registry (enqueue_hub _ _ _)).trans hregistry

/-- Only the background sweep moves its timer. -/
theorem Move.sweeper (hmove : b.Move o b') (hno : o ≠ some .sweep) :
    b'.registry.sweeper = b.registry.sweeper := by
  cases hmove with
  | asked arrival draws => exact congrArg _ (b.register_cases arrival draws).registry
  | releasing r =>
      obtain ⟨h, releases, -, hregistry, heq⟩ := b.requestRelease_eq r
      rw [heq]
      exact congrArg _ hregistry
  | sent m =>
      obtain ⟨h, intake, -, hregistry, heq⟩ := b.send_eq m
      rw [heq]
      exact congrArg _ hregistry
  | beat =>
      obtain ⟨h, intake, -, hregistry, heq⟩ := b.runHeartbeat_eq
      rw [heq]
      exact congrArg _ hregistry
  | reported _ htimer => exact htimer
  | looked id => exact (b.registry.sameTime_lookup id).2
  | read c =>
      obtain ⟨h, rfl | rfl, heq⟩ := b.read_eq c
      · rw [heq]
      · rw [heq]
        exact (b.hub.sameTime_act (a := .read c) fun _ => Act.noConfusion).2
  | left c => exact (b.hub.sameTime_act (a := .leave c) fun _ => Act.noConfusion).2
  | turned _ hturn =>
      rw [registry, hturn.hub]
      exact (b.hub.sameTime_act hturn.ne.1).2
  | joined =>
      obtain ⟨h, -, hregistry, heq⟩ := b.joinTasks_eq
      rw [heq]
      exact congrArg _ hregistry
  | stopped hruns hfirst hclock =>
      obtain ⟨h, -, hregistry, heq⟩ := stop_eq hruns hfirst hclock
      rw [heq]
      have htime := (b.hub.sameTime_act (a := .stop) fun _ => Act.noConfusion).2
      exact (congrArg Registry.sweeper hregistry).trans htime
  | swept => exact absurd rfl hno
  | abandoned => rfl
  | numbered => rfl
  | letIn => rfl
  | set => rfl
  | waited => rfl

/-- The clock is not moved past an alarm that is set. -/
theorem nextDue_le_alarmAt {alarm : Alarm} (hmem : alarm ∈ b.alarms) {t : Nat}
    (hat : b.alarmAt alarm = some t) : ∃ due, b.nextDue = some due ∧ due ≤ t := by
  have hset : t ∈ b.alarms.filterMap b.alarmAt := List.mem_filterMap.mpr ⟨alarm, hmem, hat⟩
  cases hdue : b.nextDue with
  | none =>
      rw [nextDue, List.min?_eq_none_iff] at hdue
      rw [hdue] at hset
      cases hset
  | some due => exact ⟨due, rfl, (List.min?_eq_some_iff.mp hdue).2 t hset⟩

end Broker

/-! ## Sweeping on time -/

theorem Clock.le_of_after {now span t : Nat} (ht : after now span = some t) : now ≤ t := by
  unfold after at ht
  split at ht
  · obtain rfl := Option.some.inj ht
    exact Nat.le_add_right _ _
  · cases ht

namespace Registry

/-- The time between two background sweeps. -/
def Config.period (config : Config) : Nat := max config.sweepInterval Ticker.minPeriod

/-- The last sweep was at the time `last`, and the next one is not late. -/
structure Tended (r : Registry) (last : Nat) : Prop where
  sweeper : r.sweeper = some ⟨r.config.period, Clock.after last r.config.period⟩
  past : last ≤ r.now
  early : ∀ due, r.nextSweep = some due → r.now ≤ due
  left : ∀ id s, r.find? id = some s → s.active = false → last ≤ s.lastSeen + r.config.ttl

variable {r r' : Registry} {last : Nat}

theorem tended_start (config : Config) (now : Nat) : (start config now).Tended now where
  sweeper := rfl
  past := Nat.le_refl _
  early _ := Clock.le_of_after
  left := nofun

theorem Tended.nextSweep (hr : r.Tended last) : r.nextSweep = Clock.after last r.config.period := by
  rw [Registry.nextSweep, hr.sweeper]
  rfl

/-- Between two sweeps sessions are left by their clients now, or were before. -/
theorem Tended.between (hr : r.Tended last) (hsweeper : r'.sweeper = r.sweeper)
    (hconfig : r'.config = r.config) (hnow : r.now ≤ r'.now)
    (hearly : ∀ due, r.nextSweep = some due → r'.now ≤ due)
    (hleft : ∀ id s, r'.find? id = some s → s.active = false → s.lastSeen = r.now ∨
      ∃ s₀, r.find? id = some s₀ ∧ s₀.active = false ∧ s.lastSeen = s₀.lastSeen) :
    r'.Tended last where
  sweeper := by rw [hsweeper, hconfig, hr.sweeper]
  past := hr.past.trans hnow
  early due hdue := hearly due (by rw [← hdue, Registry.nextSweep, Registry.nextSweep, hsweeper])
  left id s hs hidle := by
    rw [hconfig]
    rcases hleft id s hs hidle with hseen | ⟨s₀, hs₀, hidle₀, hseen⟩
    · rw [hseen]
      exact hr.past.trans (Nat.le_add_right _ _)
    · rw [hseen]
      exact hr.left id s₀ hs₀ hidle₀

/-- A sweep that is not late leaves nothing that has expired. -/
theorem Tended.sweep (hr : r.Tended last) (hnodup : (Table.ids r.sessions).Nodup) {ticker : Ticker}
    (hticker : r.sweeper = some ticker) (hdue : ticker.isDue r.now = true) :
    ({ r.sweep.1 with sweeper := some (ticker.fire r.now) } : Registry).Tended r.now := by
  obtain ⟨hconfig, hnow⟩ := Hub.registry_sweep_terms r
  obtain rfl := Option.some.inj (hr.sweeper.symm.trans hticker)
  obtain ⟨due, hat, hle⟩ := (Option.any_eq_true _ _).mp hdue
  have hat : Clock.after last r.config.period = some due := hat
  have hontime : due = r.now :=
    Nat.le_antisymm (of_decide_eq_true hle) (hr.early due (hr.nextSweep.trans hat))
  have hfire : (Ticker.mk r.config.period (Clock.after last r.config.period)).fire r.now
      = ⟨r.config.period, Clock.after r.now r.config.period⟩ := by
    simp [Ticker.fire, hat, hontime]
  refine ⟨?_, Nat.le_of_eq hnow.symm, ?_, ?_⟩
  · rw [hfire, hconfig]
  · intro next hnext
    rw [Registry.nextSweep, hfire] at hnext
    rw [hnow]
    exact Clock.le_of_after hnext
  · intro id s hs hidle
    have hkept := (Option.filter_eq_some_iff.mp ((r.find?_sweep hnodup id).symm.trans hs)).2
    simp only [isExpired, Session.expired, hidle, Bool.not_false, Bool.true_and, Bool.not_eq_true',
      decide_eq_false_iff_not] at hkept
    rw [hconfig]
    omega

/-- A session without a client is kept for its time to live and one period at most. -/
theorem Tended.bound (hr : r.Tended last) (hnow : r.now ≤ Clock.horizon) {id : SessionId}
    {s : Session} (hs : r.find? id = some s) (hidle : s.active = false) :
    r.now - s.lastSeen ≤ r.config.ttl + r.config.period := by
  have hleft := hr.left id s hs hidle
  have hnext : r.now ≤ last + r.config.period := by
    by_cases hnamed : last + r.config.period < Clock.horizon
    · exact hr.early _ (hr.nextSweep.trans (if_pos hnamed))
    · omega
  omega

end Registry

/-- A session is active exactly while somebody holds it. -/
theorem Hub.Sound.free_iff {hs : List Client} {h : Hub} (hS : h.Sound hs) {id : SessionId}
    {s : Session} (hs : h.registry.find? id = some s) :
    Table.get? h.clients id = none ↔ s.active = false := by
  rw [(hS.place id).held.active_eq hs, Option.isSome_eq_false_iff, Option.isNone_iff_eq_none]
  rfl

/-- Where an act leaves a session without a client its retention begins, or has begun. -/
theorem Trail.idle_after {past : List Moment} {x : Moment} {h : Hub} (htrail : Trail (x :: past) h)
    {id : SessionId} {s : Session} (hs : h.registry.find? id = some s) (hidle : s.active = false) :
    s.lastSeen = x.time ∨ ∃ s₀, x.before.registry.find? id = some s₀ ∧ s₀.active = false ∧
      s.lastSeen = s₀.lastSeen := by
  have hplace := htrail.uncons.2.2.2.place id
  have hslot := (htrail.sound.free_iff hs).mpr hidle
  rcases (htrail.step_last id).lastSeen ((congrArg Place.slot hplace).symm.trans hslot)
    ((congrArg Place.session hplace).symm.trans hs) with hseen | ⟨hfree, s₀, hs₀, hseen⟩
  · exact Or.inl hseen
  · exact Or.inr ⟨s₀, hs₀, (htrail.uncons.1.sound.free_iff hs₀).mp hfree, hseen⟩

namespace Broker

variable {b b' : Broker} {past new : List Moment} {last : Nat} {o : Option Act} {a : Act}

/-- The sweeps go on in time, whatever happens. -/
theorem Move.tended (hmove : b.Move o b') (hlife : Life past b) (hr : b.registry.Tended last) :
    ∃ last', b'.registry.Tended last' := by
  have hS := hlife.trail.sound
  cases o with
  | none =>
      have hu := hmove.quiet
      have hnow : b'.registry.now = b.registry.now := congrArg Terms.now hu.terms
      refine ⟨last, hr.between (hmove.sweeper nofun) (congrArg Terms.sessions hu.terms)
        (Nat.le_of_eq hnow.symm) (fun due hdue => hnow ▸ hr.early due hdue) ?_⟩
      intro id s hs hidle
      exact Or.inr ⟨s, (congrArg Place.session (hu.place id)).symm.trans hs, hidle, rfl⟩
  | some a =>
      obtain ⟨hu, hfault⟩ := hmove.act hlife.not_failed
      have hterms := hu.terms.trans (hS.terms_act a hfault)
      have hconfig : b'.registry.config = b.registry.config := congrArg Terms.sessions hterms
      have hnow : b'.registry.now = a.clock b.registry.now := congrArg Terms.now hterms
      have hleft : ∀ id s, b'.registry.find? id = some s → s.active = false →
          s.lastSeen = b.registry.now ∨ ∃ s₀, b.registry.find? id = some s₀ ∧ s₀.active = false ∧
            s.lastSeen = s₀.lastSeen := fun _ _ => (hlife.act hmove).trail.idle_after
      have hother : (∀ span, a ≠ .wait span) → a ≠ .sweep → ∃ last', b'.registry.Tended last' := by
        intro hwait hsweep
        have hstill : b'.registry.now = b.registry.now := by
          rw [hnow]
          cases a with
          | wait span => exact absurd rfl (hwait span)
          | _ => rfl
        exact ⟨last, hr.between (hmove.sweeper (fun heq => hsweep (Option.some.inj heq))) hconfig
          (Nat.le_of_eq hstill.symm) (fun due hdue => hstill ▸ hr.early due hdue) hleft⟩
      cases hmove with
      | @swept ticker hticker hdue =>
          rw [runSweeper_eq hticker hdue]
          exact ⟨_, hr.sweep hS.sessions_nodup hticker hdue⟩
      | @waited t hrest hle hsmooth =>
          refine ⟨last, hr.between rfl rfl hle ?_ hleft⟩
          intro due hdue
          obtain ⟨first, hfirst, hbefore⟩ := nextDue_le_alarmAt (hlife.mem_alarms .sweep) hdue
          exact (hsmooth first hfirst).trans hbefore
      | turned hbusy hturn =>
          refine hother hturn.ne.1 ?_
          rintro rfl
          cases hturn
      | looked => exact hother nofun nofun
      | read => exact hother nofun nofun
      | left => exact hother nofun nofun
      | stopped => exact hother nofun nofun

theorem Later.tended (hlater : b.Later new b') (hlife : Life past b) (hr : b.registry.Tended last) :
    ∃ last', b'.registry.Tended last' := by
  induction hlater with
  | refl => exact ⟨last, hr⟩
  | quiet hlater hmove ih =>
      obtain ⟨last', hr'⟩ := ih
      exact hmove.tended (hlife.later hlater) hr'
  | act hlater hmove ih =>
      obtain ⟨last', hr'⟩ := ih
      exact hmove.tended (hlife.later hlater) hr'

/-- From the start of a broker on, a session without a client is kept for its time to live
and one period of the sweep at most. -/
theorem Later.bound {config : Config} {sessions : Registry.Config} {now : Nat}
    (hstart : Broker.start config (.start sessions now) = .ok b) (hlater : b.Later new b')
    (htime : b'.now ≤ Clock.horizon) {id : SessionId} {s : Session}
    (hs : b'.registry.find? id = some s) (hidle : s.active = false) :
    b'.now - s.lastSeen ≤ sessions.ttl + max sessions.sweepInterval Ticker.minPeriod := by
  have hlife := Life.of_start hstart
  have hregistry : b.registry = .start sessions now := (Broker.start_hub hstart).1
  obtain ⟨last, htended⟩ := hlater.tended hlife (hregistry ▸ Registry.tended_start sessions now)
  have hkept := htended.bound htime hs hidle
  rwa [(hlater.terms hlife).2.1, hregistry] at hkept

end Broker

/-- **The retention window.** Let a connection end, and let nobody be admitted to its session
since. Whatever else has happened, the session is found, may be claimed, and is given back
to a registration that presents it (for the user agent that it was made for, with strict
binding), if and only if no more time has passed than it has to live.

A session that somebody holds is there, and neither a sweep nor a look changes it. And in a
life in which time passes smoothly, with a background sweep, nothing that has ended is kept
for longer than its time to live and one period of the sweep, up to the end of the clock: not
at any point of the life, and not after a sleep. -/
theorem Trail.retention_window {newer older : List Moment} {y : Moment} {h : Hub} {c : Client}
    (htrail : Trail (newer ++ y :: older) h)
    (hc : c ∈ handles ((y :: older).map Moment.occurrence)) (hends : y.ends c)
    (hfree : ∀ z ∈ newer, ∀ c', z.outcome = .admitted c' → c'.session ≠ c.session) :
    ((h.registry.lookup c.session).2.isSome = true ↔ h.now - y.time ≤ h.registry.config.ttl) ∧
    (∃ mid x rest g₀, y :: older = mid ++ x :: rest ∧ x.makes c.session g₀ ∧
      (∀ z ∈ mid, (z.before.registry.find? c.session).isSome = true) ∧
      ∀ g : Registration, (h.registry.config.strictBinding = true →
          g.metadata.userAgent = g₀.metadata.userAgent) →
        (h.registry.claimable c.session g.metadata = true ↔
          h.now - y.time ≤ h.registry.config.ttl) ∧
        (g.candidate = some c.session → (h.act (.register g)).2.isFault = false →
          ((∃ c', (h.act (.register g)).2 = .admitted c' ∧ c'.session = c.session ∧
            c'.reconnected = true) ↔ h.now - y.time ≤ h.registry.config.ttl))) ∧
    (∀ c' ∈ handles ((newer ++ y :: older).map Moment.occurrence), c'.id ∉ h.closed →
      ∃ s, h.registry.find? c'.session = some s ∧ s.active = true) ∧
    (∀ id s, h.registry.find? id = some s → s.active = true →
      h.registry.sweep.1.find? id = some s ∧
        ∀ key, (h.registry.lookup key).1.find? id = some s) ∧
    ∀ (config : Broker.Config) (sessions : Registry.Config) (now : Nat) (b₀ b : Broker),
      Broker.start config (.start sessions now) = .ok b₀ → b₀.Later (newer ++ y :: older) b →
      b.hub = h →
      (h.now ≤ Clock.horizon →
        sessions.ttl + max sessions.sweepInterval Ticker.minPeriod < h.now - y.time →
        h.registry.find? c.session = none) ∧
      ∀ span, b.Punctual → (b.sleep span).Goes → h.now + span ≤ Clock.horizon →
        ∀ id s, (b.sleep span).registry.find? id = some s → s.active = false →
          h.now + span - s.lastSeen
            ≤ sessions.ttl + max sessions.sweepInterval Ticker.minPeriod := by
  obtain ⟨s, hs, hretires⟩ := htrail.retires hc hends hfree
  obtain ⟨hfound, hclaimed⟩ := hretires.window
  refine ⟨hfound, ?_, fun c' hc' hopen => htrail.held hc' hopen, fun id s => htrail.untouched, ?_⟩
  · obtain ⟨mid, x, rest, g₀, hsplit, hmakes, hbears, hthere⟩ := htrail.cut.origin hs
    refine ⟨mid, x, rest, g₀, hsplit, hmakes, hthere, ?_⟩
    intro g hbinding
    have hclaim := hclaimed g.metadata (hbears ▸ hbinding)
    refine ⟨hclaim, ?_⟩
    intro hcandidate hfault
    rw [htrail.sound.reclaims_iff hfault, Hub.claim?_iff, hclaim]
    exact ⟨fun h => h.2.2, fun h => ⟨hcandidate, hretires.slot_eq_none, h⟩⟩
  · rintro config sessions now b₀ b hstart hlater rfl
    constructor
    · intro htime hlate
      cases hsession : b.hub.registry.find? c.session with
      | none => rfl
      | some s' =>
          obtain ⟨hidle, hseen, -⟩ := hretires.session hsession
          have hkept := hlater.bound hstart htime hsession hidle
          rw [hseen] at hkept
          exact absurd hkept (Nat.not_le_of_lt hlate)
    · intro span hpunctual hgoes htime id s hs hidle
      have hlife := (Broker.Life.of_start hstart).later hlater
      obtain ⟨new, honward, hend⟩ := Broker.sleep_onward hlife hpunctual hgoes
      have hnow : (b.sleep span).now = b.hub.now + span := hend.now
      have hkept := (hlater.trans honward.later).bound hstart (hnow ▸ htime) hs hidle
      rwa [hnow] at hkept

/-- A new broker whose sessions live for no time, with a sweep every ten milliseconds. -/
def Broker.brief : Broker where
  hub := ({ config := {}, registry := .start { ttl := 0, sweepInterval := 0 } 0 } : Hub).note
    (.brokerStarted 64 1024 25000 5000)
  heartbeat := Ticker.start 25000 0

/-- The broker once somebody was admitted. -/
def Broker.brief.joined : Broker := (Broker.brief.register {} [.ok "S1"]).1.turn

/-- The broker once everybody was let go. -/
def Broker.brief.parted : Broker := (joined.unregister "S1").turn

/-- The broker after one sweep. -/
def Broker.brief.swept : Broker := (parted.setClock 10).runSweeper

open Broker in
/-- A client is let go at once. Eleven milliseconds later nothing is left of its session. -/
theorem retention_window_over :
    ∃ newer y older, ∃ b : Broker, ∃ c, Trail (newer ++ y :: older) b.hub ∧
    y.ends c ∧ (b.hub.registry.lookup c.session).2.isSome = false ∧
    b.hub.registry.find? c.session = none := by
  have hnext : ∀ (b : Broker) (t first : Nat), b.nextDue = some first → t ≤ first →
      ∀ due, b.nextDue = some due → t ≤ due := by
    intro b t first hfirst hle due hdue
    exact hle.trans (Nat.le_of_eq (Option.some.inj (hfirst.symm.trans hdue)))
  obtain ⟨a, hjoin⟩ :=
    turn_of_running (b := (Broker.brief.register {} [.ok "S1"]).1) (by decide +kernel)
  obtain ⟨a', hpart⟩ :=
    turn_of_running (b := Broker.brief.joined.unregister "S1") (by decide +kernel)
  have hstart : Broker.start {} (.start { ttl := 0, sweepInterval := 0 } 0) = .ok Broker.brief :=
    rfl
  have hlife := Life.of_start hstart
  have hjoined := ((Later.refl (b := Broker.brief)).quiet (.asked {} [.ok "S1"])).act
    (.turned (by decide +kernel) hjoin)
  have hparted := (hjoined.quiet (.releasing ⟨"S1", none⟩)).act (.turned (by decide +kernel) hpart)
  have hswept := (hparted.act (.waited (b := Broker.brief.parted) (t := 10) ⟨by decide +kernel, rfl⟩
    (by decide +kernel) (hnext _ 10 10 (by decide +kernel) (by decide)))).act
    (.swept (b := Broker.brief.parted.setClock 10) rfl (by decide +kernel))
  have hover := hswept.act (.waited (b := Broker.brief.swept) (t := 11) ⟨by decide +kernel, rfl⟩
    (by decide +kernel) (hnext _ 11 20 (by decide +kernel) (by decide)))
  obtain ⟨slot, hslot, hname⟩ :
      ∃ slot, Table.get? Broker.brief.joined.hub.clients "S1" = some slot ∧
      slot.client = ⟨1⟩ := Option.map_eq_some_iff.mp (by decide +kernel)
  obtain ⟨c, hc, hid, hclient⟩ := (hlife.later hjoined).trail.sound.owned "S1" slot hslot
  have hends : (Moment.mk a' (Broker.brief.joined.unregister "S1").hub).ends c := by
    rw [Moment.ends, Moment.after, ← hpart.hub, hclient, hname]
    show _ ∉ (Broker.brief.joined.unregister "S1").hub.closed ∧ _
    exact ⟨by decide +kernel, by decide +kernel⟩
  have hthree : ∀ z ∈ [Moment.mk (.wait (11 - Broker.brief.swept.now)) Broker.brief.swept.hub,
      ⟨.sweep, (Broker.brief.parted.setClock 10).hub⟩,
      ⟨.wait (10 - Broker.brief.parted.now), Broker.brief.parted.hub⟩],
      ∀ c', z.outcome = .admitted c' → c'.session ≠ c.session := by
    simp [Moment.outcome, Hub.act]
  have htrail := (hlife.later hover).trail
  have hwindow := @Trail.retention_window [_, _, _] _ _ _ _ htrail
    (Trail.handles_append [⟨a', (Broker.brief.joined.unregister "S1").hub⟩] hc) hends hthree
  have hlate : 0 + max 0 Ticker.minPeriod < (Broker.brief.swept.setClock 11).hub.now
      - (Broker.brief.joined.unregister "S1").hub.now := by decide +kernel
  refine ⟨[_, _, _], _, _, Broker.brief.swept.setClock 11, c, htrail, hends, ?_, ?_⟩
  · exact Bool.eq_false_iff.mpr
      (mt hwindow.1.mp (Nat.not_le_of_lt (Nat.lt_of_le_of_lt (by decide) hlate)))
  · exact (hwindow.2.2.2.2 {} { ttl := 0, sweepInterval := 0 } 0 _ _ hstart hover rfl).1
      (by decide +kernel) hlate

end EventRelay
