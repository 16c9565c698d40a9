import EventRelay.App.Basic
import EventRelay.Proofs.Faults
import EventRelay.Proofs.Reachable
import EventRelay.Settings.Options

/-!
# How long the loop goes on

While the settings and the time are bearable (`Terms.Bearable`) a turn goes past no limit but
one (`Broker.turn_fits`): a session may be taken back once more than can be counted
(`Broker.turn_overcounts_iff`), and it is not while there is room for everybody who waits
(`Broker.Reachable.goes_on`). Until then the loop serves everybody
(`Broker.serves_of_bearable`). The settings and the time have to be bearable for that: a loop
that `Endures` has met every limit (`Broker.Endures.bearable`), for somebody may come, go and
come back to a full buffer, or come and not read. And whatever they are, somebody may come
back too often (`Broker.Endures.overcounts`). `App.serves_iff` says so of the relay with its
settings.
-/

namespace EventRelay

namespace Broker

variable {b b' b₀ : Broker} {o : Option Act} {a : Act} {past : List Moment}

section NewBroker

variable {t : Nat}

/-! ## Within the limits -/

/-- What a turn leaves that goes on: it tells nobody that the loop has ended. -/
def Proceeds (b b' : Broker) : Prop :=
  b'.phase = b.phase ∧ ∀ e ∈ b'.answers, e ∈ b.answers ∨ e.2 ≠ .error .shutDown

theorem Proceeds.answered {ticket : Ticket} {answer : Except Refusal Client}
    (hphase : b'.phase = b.phase) (hanswers : b'.answers = (ticket, answer) :: b.answers)
    (hanswer : answer ≠ .error .shutDown) : b.Proceeds b' := by
  refine ⟨hphase, fun e he => ?_⟩
  rw [hanswers] at he
  rcases List.mem_cons.mp he with rfl | he
  · exact Or.inr hanswer
  · exact Or.inl he

/-- A turn that meets no limit goes on, unless one more return is to be counted than there is
room for. -/
theorem turn_fits (hclock : b.hub.deadlineOverflows = false)
    (hfits : ∀ g f, (b.hub.register g).2 ≠ .error (.fault f)) :
    b.turn.phase = .failed .countOverflow ∨ b.Proceeds b.turn := by
  unfold turn
  rw [hclock, if_neg Bool.false_ne_true]
  split
  · exact Or.inr ⟨rfl, fun _ => Or.inl⟩
  show b.work.phase = _ ∨ b.Proceeds b.work
  unfold work
  split
  · exact Or.inr ⟨rfl, fun _ => Or.inl⟩
  split
  · next ticket g _ _ =>
      unfold accept
      split
      · exact Or.inl rfl
      split
      · exact Or.inr (.answered rfl rfl nofun)
      · next heq =>
          refine Or.inr (.answered rfl rfl ?_)
          rintro ⟨⟩
          simpa using Hub.register_error (congrArg Prod.snd heq)
      · next heq => exact absurd (congrArg Prod.snd heq) (hfits g _)
  split <;> exact Or.inr ⟨rfl, fun _ => Or.inl⟩

theorem Accounted.turn_fits (hacc : Accounted past b₀ b) (hfits : (b₀.termsAt b.now).Bearable) :
    b.turn.phase = .failed .countOverflow ∨ b.Proceeds b.turn := by
  have hbearable : b.hub.terms.Bearable := hacc.terms ▸ hfits
  exact Broker.turn_fits (hacc.trail.deadlines_fit hbearable)
    fun _ => hacc.trail.sound.register_fits hbearable

/-- The loop has not failed but for one thing that no setting keeps it from: somebody came back
to a session more often than can be counted. -/
def Lasts (b : Broker) : Prop := ∀ f, b.phase = .failed f → f = .countOverflow

theorem running_of_busy (hbusy : b.isIdle = false) : b.phase = .running := by
  by_contra hphase
  cases hbusy.symm.trans (isIdle_of_not_running (beq_false_of_ne hphase))

/-- The loop lasts while the settings and the time are bearable. -/
theorem Reachable.lasts (hnew : b₀.New) (hfits : (b₀.termsAt t).Bearable)
    (hreach : b₀.Reachable b) (hnow : b.now ≤ t) : b.Lasts := by
  induction hreach with
  | refl =>
      rw [hnew.initial]
      nofun
  | @moved b b' o hreach hmove ih =>
      intro f hfailed
      rcases hmove.frame.phase with hphase | ⟨hstopped, -⟩
      · exact ih (hmove.now_le.trans hnow) f (hphase ▸ hfailed)
      · cases hfailed.symm.trans hstopped
  | @turned b hreach hbusy ih =>
      rw [turn_now] at hnow
      have hruns := running_of_busy hbusy
      obtain ⟨past, hacc⟩ := hreach.accounted hnew (goes_of_running hruns)
      intro f hfailed
      rcases hacc.turn_fits (hfits.earlier hnow) with hcount | ⟨hphase, -⟩
      · exact Phase.failed.inj (hfailed.symm.trans hcount)
      · cases hfailed.symm.trans (hphase.trans hruns)
  | passed hreach hle ih => exact ih (hle.trans hnow)

/-- Nobody is told that the loop has ended while it runs. -/
theorem Reachable.answers_ne (hnew : b₀.New) (hfits : (b₀.termsAt t).Bearable)
    (hreach : b₀.Reachable b) (hnow : b.now ≤ t) (hruns : b.phase = .running) :
    ∀ e ∈ b.answers, e.2 ≠ .error .shutDown := by
  have hturned : ∀ {b}, b₀.Reachable b → b.now ≤ t →
      (b.phase = .running → ∀ e ∈ b.answers, e.2 ≠ .error .shutDown) → b.phase = .running →
      b.turn.phase = .running → ∀ e ∈ b.turn.answers, e.2 ≠ .error .shutDown := by
    intro b hreach hnow ih hruns hruns' e he
    obtain ⟨past, hacc⟩ := hreach.accounted hnew (goes_of_running hruns)
    rcases hacc.turn_fits (hfits.earlier hnow) with hcount | ⟨-, hanswers⟩
    · cases hcount.symm.trans hruns'
    · exact (hanswers e he).elim (ih hruns e) id
  induction hreach with
  | refl =>
      rw [hnew.initial]
      nofun
  | @moved b b' o hreach hmove ih =>
      have hnow' := hmove.now_le.trans hnow
      have hbefore : b.phase = .running := hmove.running_before hruns
      rcases hmove.drives with ⟨-, hsame, -⟩ | ⟨a, -, -, -, rfl⟩ | ⟨hruns', hfirst, hclock, rfl⟩
      · rw [hsame]
        exact ih hnow' hbefore
      · exact hturned hreach hnow' (ih hnow') hbefore hruns
      · obtain ⟨h, -, -, heq⟩ := stop_eq hruns' hfirst hclock
        cases hruns.symm.trans (congrArg Broker.phase heq)
  | @turned b hreach hbusy ih =>
      rw [turn_now] at hnow
      exact hturned hreach hnow (ih hnow) (running_of_busy hbusy) hruns
  | passed hreach hle ih => exact ih (hle.trans hnow) hruns

/-! ## Whoever asks is answered -/

/-- The loop goes on until the time `t` unless it is stopped, or comes to count one more return
than it can: whoever asks for a connection may wait, and whoever waits is answered by the hub. -/
def Serves (b₀ : Broker) (t : Nat) : Prop :=
  ∀ b, b₀.Reachable b → b.now ≤ t → b.phase ≠ .stopped → b.phase ≠ .failed .countOverflow →
    b.isRunning = true ∧
    (∀ arrival draws, (b.register arrival draws).2 ≠ .error .shutDown) ∧
    ∀ n ∈ b.tickets, ∃ answer, b.settle.answer? n = some answer ∧
      (answer ≠ .error .shutDown ∨ b.settle.phase = .failed .countOverflow)

theorem register_ne (hruns : b.isRunning = true) (arrival : Arrival) (draws : List Draw) :
    (b.register arrival draws).2 ≠ .error .shutDown := by
  have hnoted : ∀ n, (b.note n).isRunning = true := fun _ => hruns
  unfold register
  split
  · nofun
  · cases hsession : arrival.session with
    | none => simp [hruns]
    | some id =>
        dsimp only
        split <;> simp [hnoted]

theorem serves_of_bearable (hnew : b₀.New) (hfits : (b₀.termsAt t).Bearable) : b₀.Serves t := by
  have hrunning : ∀ {b}, b₀.Reachable b → b.now ≤ t → b.phase ≠ .stopped →
      b.phase ≠ .failed .countOverflow → b.phase = .running := by
    intro b hreach hnow hopen hcounts
    cases hphase : b.phase with
    | running => rfl
    | stopped => exact absurd hphase hopen
    | failed f =>
        obtain rfl := hreach.lasts hnew hfits hnow f hphase
        exact absurd hphase hcounts
  intro b hreach hnow hopen hcounts
  have hruns : b.isRunning = true := by
    rw [isRunning, hrunning hreach hnow hopen hcounts]
    rfl
  refine ⟨hruns, register_ne hruns, fun n hn => ?_⟩
  obtain ⟨answer, hanswer⟩ := Option.isSome_iff_exists.mp (settle_answers hruns hn)
  refine ⟨answer, hanswer, or_iff_not_imp_right.mpr fun hcounts' => ?_⟩
  obtain ⟨hreach', hnow', hphase⟩ := hreach.spells (fun _ => false) b.spellBound
  obtain ⟨before, after, heq, -⟩ := List.lookup_eq_some_iff.mp hanswer
  have hmem : (n, answer) ∈ b.settle.answers := by simp [heq]
  have hle : b.settle.now ≤ t := (Nat.le_of_eq hnow').trans hnow
  exact hreach'.answers_ne hnew hfits hle
    (hrunning hreach' hle (fun hstopped => hopen (hphase hstopped)) hcounts') _ hmem

end NewBroker

/-! ## Counting too far -/

/-- The loop has come to a registration that takes a session back once more than can be
counted. -/
def Overcounts (b : Broker) : Prop :=
  b.hub.deadlineOverflows = false ∧ b.releases = [] ∧ ∃ ticket g rest id s,
    b.registrations = (ticket, g) :: rest ∧ b.hub.claim? g = some id ∧
    b.registry.find? id = some s ∧ s.reconnects.toNat = Limits.maxCount

theorem overcounted?_eq_some {h : Hub} {g : Registration} {id : SessionId} :
    h.overcounted? g = some id ↔ h.claim? g = some id ∧
      ∃ s, h.registry.find? id = some s ∧ s.reconnects.toNat = Limits.maxCount := by
  simp [Hub.overcounted?, Session.countFull, Option.filter_eq_some_iff, Option.any_eq_true]

theorem turn_overcounts (hover : b.Overcounts) : b.turn.phase = .failed .countOverflow := by
  obtain ⟨hclock, hfree, ticket, g, rest, id, s, hwaits, hclaim, hs, hfull⟩ := hover
  have hload : b.workload ≠ 0 := by simp [workload, hwaits]
  have hcount := overcounted?_eq_some.mpr ⟨hclaim, s, hs, hfull⟩
  rw [turn, hclock, if_neg Bool.false_ne_true, if_neg hload, work_register hfree hwaits,
    accept, hcount]
  rfl

/-- A turn counts too far only where it has to. -/
theorem turn_overcounts_iff (hruns : b.phase = .running) :
    b.turn.phase = .failed .countOverflow ↔ b.Overcounts := by
  refine ⟨fun hfailed => ?_, turn_overcounts⟩
  have hfails := turn_fails hruns hfailed
  generalize b.turn = b' at hfails
  cases hfails with
  | counting hclock hfree hwaits hcount =>
      obtain ⟨hclaim, s, hs, hfull⟩ := overcounted?_eq_some.mp hcount
      exact ⟨hclock, hfree, _, _, _, _, s, hwaits, hclaim, hs, hfull⟩
  | admitting _ _ _ _ hfault => simpa using Hub.register_error hfault

/-- How often clients will have come back to a session when everybody who waits now has come
back to it. -/
def returnsDue (b : Broker) (id : SessionId) : Nat := (b.hub.place id).returns + b.pending.length

/-- Whoever comes back has waited for it. -/
theorem Turn.returnsDue_le {hs : List Client} (hS : b.hub.Sound hs) (hturn : b.Turn a b')
    (id : SessionId) : b'.returnsDue id ≤ b.returnsDue id := by
  have hstep := hS.step a hturn.isFault id
  rw [← hturn.hub] at hstep
  have hserved : ∀ {c : Broker} {n : Nat}, (c.hub.place id).returns ≤ (b.hub.place id).returns + n →
      b.pending.length = c.pending.length + n → c.returnsDue id ≤ b.returnsDue id := by
    intro c n hreturns hpending
    unfold returnsDue
    omega
  cases hturn with
  | released => exact hserved (n := 0) (hstep.continues nofun).returns rfl
  | dispatched => exact hserved (n := 0) (hstep.continues nofun).returns rfl
  | reaped => exact hserved (n := 0) (hstep.continues nofun).returns rfl
  | answered _ hwaits =>
      refine hserved hstep.returns_le ?_
      rw [Broker.pending, hwaits]
      rfl

/-- Whoever asks for a connection may come back to one session. -/
theorem Asked.returnsDue_le {arrival : Arrival} {result : Broker × Except Refusal Ticket}
    (hasked : b.Asked arrival result) (id : SessionId) :
    result.1.returnsDue id ≤ b.returnsDue id + 1 := by
  cases hasked with
  | refused hu =>
      rw [returnsDue, hu.place]
      exact Nat.le_succ _
  | @queued h g hu =>
      rw [returnsDue, length_pending_enqueue, enqueue_hub, hu.place]
      exact Nat.le_refl _

/-- Where the loop counts too far, too many clients have come back. -/
theorem Overcounts.returnsDue (hover : b.Overcounts) :
    ∃ id, Limits.maxCount < b.returnsDue id := by
  obtain ⟨-, -, ticket, g, rest, id, s, hwaits, -, hs, hfull⟩ := hover
  have hreturns : (b.hub.place id).returns = s.reconnects.toNat := by
    rw [Place.returns, show (b.hub.place id).session = some s from hs]
    rfl
  refine ⟨id, ?_⟩
  rw [Broker.returnsDue, hreturns, hfull, Broker.pending, hwaits]
  simp

/-- While the settings and the time are bearable, the loop goes on if all who wait may come back
to one session and can be counted. -/
theorem Reachable.goes_on {t : Nat} (hnew : b₀.New) (hfits : (b₀.termsAt t).Bearable)
    (hreach : b₀.Reachable b) (hnow : b.now ≤ t) (hgoes : b.Goes)
    (hroom : ∀ id, b.returnsDue id ≤ Limits.maxCount) (enough : Broker → Bool) (n : Nat) :
    (Broker.spells enough n b).Goes := by
  refine (spells_keep (P := fun c => b₀.Reachable c ∧ c.now ≤ t ∧ c.Goes ∧
    ∀ id, c.returnsDue id ≤ Limits.maxCount) ?_ ?_ enough n ⟨hreach, hnow, hgoes, hroom⟩).2.2.1
  · rintro c ⟨hreach, hnow, hgoes, hroom⟩ hbusy
    have hruns := running_of_busy hbusy
    obtain ⟨past, hacc⟩ := hreach.accounted hnew hgoes
    have hreach' := hreach.turned hbusy
    have hnow' : c.turn.now ≤ t := c.turn_now ▸ hnow
    have hgoes' : c.turn.Goes := by
      intro f hfailed
      obtain rfl := hreach'.lasts hnew hfits hnow' f hfailed
      obtain ⟨id, hmany⟩ := ((turn_overcounts_iff hruns).mp hfailed).returnsDue
      exact Nat.not_lt_of_le (hroom id) hmany
    refine ⟨hreach', hnow', hgoes', fun id => ?_⟩
    obtain ⟨a, hturn⟩ := c.turn_cases.resolve_left fun hends =>
      hends.1.elim fun f hfailed => hgoes' f hfailed
    exact (hturn.returnsDue_le hacc.trail.sound id).trans (hroom id)
  · rintro c ⟨hreach, hnow, hgoes, hroom⟩
    refine ⟨hreach.moved .letIn, hnow, hgoes, fun id => ?_⟩
    rw [Broker.returnsDue, letIn_pending]
    exact hroom id

/-! ## What a loop that lasts has shown

Every request is then served (`Ready.sent`, `Ready.released`, `Ready.asked`), and each limit
is met by some of them: a first client needs a buffer and a queue, a client that comes back
to a full buffer needs a longer queue, and a client whose queue is filled needs a deadline.
A client that comes and goes often enough comes to the end of the counter. -/

/-- The loop lasts until the time `t`, whatever happens. -/
def Endures (b₀ : Broker) (t : Nat) : Prop := ∀ b, b₀.Reachable b → b.now ≤ t → b.Lasts

/-- What the loop does next. -/
def upcoming (b : Broker) : Act :=
  match b.releases, b.registrations, b.intake with
  | r :: _, _, _ => .release r.session r.client
  | [], (_, g) :: _, _ => .register g
  | [], [], m :: _ => .dispatch m
  | [], [], [] => .reap

theorem Turn.eq_upcoming (hturn : b.Turn a b') : a = b.upcoming := by
  cases hturn with
  | released hwaits => simp [upcoming, hwaits]
  | answered hfree hwaits => simp [upcoming, hfree, hwaits]
  | dispatched hfree hfree' hwaits => simp [upcoming, hfree, hfree', hwaits]
  | reaped hfree =>
      obtain ⟨hreleases, hregistrations, hintake⟩ := workload_eq_zero.mp hfree
      simp [upcoming, hreleases, hregistrations, hintake]

/-- The loop runs, and at the time `t` nothing waits for it. -/
structure Ready (b₀ b : Broker) (t : Nat) : Prop where
  reach : b₀.Reachable b
  runs : b.phase = .running
  free : b.workload = 0
  now : b.now = t

section Served

variable {t : Nat} {id : SessionId} {s : Session} {slot : Slot}

/-- A request that waits alone is served. -/
theorem Endures.served (hends : b₀.Endures t) (hreach : b₀.Reachable b) (hruns : b.phase = .running)
    (hnow : b.now = t) (hone : b.workload = 1) (hcounts : ¬ b.Overcounts) :
    b.Turn b.upcoming b.turn ∧ Ready b₀ b.turn t := by
  have hbusy : b.isIdle = false := by simp [isIdle, isRunning, hruns, hone]
  have hnow' : b.turn.now = t := b.turn_now.trans hnow
  have hlasts := hends _ (hreach.turned hbusy) (Nat.le_of_eq hnow')
  rcases b.turn_cases with ⟨⟨f, hfailed⟩, -⟩ | ⟨a, hturn⟩
  · obtain rfl := hlasts f hfailed
    exact absurd ((turn_overcounts_iff hruns).mp hfailed) hcounts
  · have hless := turn_workload (b := b) (by omega)
    exact ⟨hturn.eq_upcoming ▸ hturn,
      hreach.turned hbusy, hturn.phase.trans hruns, by omega, hnow'⟩

theorem Ready.sent (hready : Ready b₀ b t) (hends : b₀.Endures t) (m : Message) :
    ∃ b', Ready b₀ b' t ∧ b'.hub = (b.hub.act (.dispatch m)).1 := by
  obtain ⟨hreleases, hregistrations, hintake⟩ := workload_eq_zero.mp hready.free
  have hsent : b.send m = { b with intake := [m] } := by
    simp [send, isRunning, hready.runs, intakeFull, hintake]
  have hreach := hready.reach.moved (.sent m)
  rw [hsent] at hreach
  obtain ⟨hturn, hready'⟩ := hends.served hreach hready.runs hready.now
    (by simp [workload, hreleases, hregistrations]) (by simp [Overcounts, hregistrations])
  refine ⟨_, hready', hturn.hub.trans ?_⟩
  simp [upcoming, hreleases, hregistrations]

theorem Ready.released (hready : Ready b₀ b t) (hends : b₀.Endures t) (id : SessionId) :
    ∃ b', Ready b₀ b' t ∧ b'.hub = (b.hub.act (.release id none)).1 := by
  obtain ⟨hreleases, hregistrations, hintake⟩ := workload_eq_zero.mp hready.free
  have hasked : b.requestRelease ⟨id, none⟩ = { b with releases := [⟨id, none⟩] } := by
    simp [requestRelease, isRunning, hready.runs, hreleases]
  have hreach := hready.reach.moved (.releasing ⟨id, none⟩)
  rw [hasked] at hreach
  obtain ⟨hturn, hready'⟩ := hends.served hreach hready.runs hready.now
    (by simp [workload, hregistrations, hintake]) (by simp [Overcounts])
  exact ⟨_, hready', hturn.hub⟩

/-- What a client presents that asks for a session, or for none. -/
def asking (b : Broker) (candidate : Option SessionId) (draws : List Draw) : Registration :=
  { candidate, lastEventId := none, metadata := {}, draws,
    client := ⟨b.serial⟩, greeting := EventId.ofSerial b.serial }

/-- A client asks for a session that it may claim, or for none. -/
theorem Ready.waits (hready : Ready b₀ b t) (candidate : Option SessionId)
    (hclaimable : ∀ id ∈ candidate, b.registry.claimable id {} = true) (draws : List Draw) :
    b₀.Reachable { b with serial := b.serial + 1,
                          registrations := [(b.serial, b.asking candidate draws)] } := by
  obtain ⟨-, hregistrations, -⟩ := workload_eq_zero.mp hready.free
  have hasked : (b.register { session := candidate } draws).1
      = { b with serial := b.serial + 1,
                 registrations := [(b.serial, b.asking candidate draws)] } := by
    cases candidate with
    | none => simp [register, isRunning, hready.runs, freshSerial, enqueue, hregistrations,
        queueLength, asking]
    | some id => simp [register, isRunning, hready.runs, freshSerial, enqueue, hregistrations,
        queueLength, hclaimable id rfl, asking]
  exact hasked ▸ hready.reach.moved (.asked { session := candidate } draws)

/-- A client that asks for a session gets an answer, if its return can be counted. -/
theorem Ready.asked (hready : Ready b₀ b t) (hends : b₀.Endures t) (candidate : Option SessionId)
    (hclaimable : ∀ id ∈ candidate, b.registry.claimable id {} = true)
    (hroom : ∀ id ∈ candidate, ∀ s ∈ b.registry.find? id, s.reconnects.toNat ≠ Limits.maxCount)
    (draws : List Draw) :
    ∃ b', Ready b₀ b' t ∧ b'.hub = (b.hub.act (.register (b.asking candidate draws))).1 ∧
      (b.hub.act (.register (b.asking candidate draws))).2.isFault = false := by
  obtain ⟨hreleases, -, hintake⟩ := workload_eq_zero.mp hready.free
  obtain ⟨hturn, hready'⟩ :=
    hends.served (hready.waits candidate hclaimable draws) hready.runs hready.now
    (by simp [workload, hreleases, hintake]) <| by
      rintro ⟨-, -, ticket, g, rest, id, s, hwaits, hclaim, hs, hfull⟩
      obtain ⟨⟨rfl, rfl⟩, -⟩ : (b.serial = ticket ∧ b.asking candidate draws = g) ∧ [] = rest := by
        simpa using hwaits
      exact hroom id (b.hub.claim?_eq_some hclaim).1 s hs hfull
  have hnext : upcoming { b with
        serial := b.serial + 1, registrations := [(b.serial, b.asking candidate draws)] }
      = .register (b.asking candidate draws) := by simp [upcoming, hreleases]
  rw [hnext] at hturn
  exact ⟨_, hready', hturn.hub, hturn.isFault⟩

/-- The clock can name the deadline of a client whose queue is full. -/
theorem Ready.in_time (hready : Ready b₀ b t) (hends : b₀.Endures t)
    (hslot : Table.get? b.hub.clients id = some slot) (hsince : slot.stalledSince = some t) :
    t + b.config.patience < Clock.horizon := by
  by_contra hlate
  have hover : b.hub.deadlineOverflows = true := by
    refine List.any_eq_true.mpr ⟨(id, slot), Table.mem_of_get? hslot, ?_⟩
    rw [Slot.deadline, hsince]
    exact decide_eq_true (Nat.le_of_not_lt hlate)
  have hbusy : b.isIdle = false := by simp [isIdle, isRunning, hready.runs, hover]
  have hturn : b.turn = b.fail .deadlineOverflow := if_pos hover
  have hlasts := hends _ (hready.reach.turned hbusy)
    (Nat.le_of_eq (b.turn_now.trans hready.now)) .deadlineOverflow (hturn ▸ rfl)
  cases hlasts

end Served

section Limits

variable {t n : Nat} {id : SessionId} {s : Session} {slot : Slot}

theorem Ready.accounted (hready : Ready b₀ b t) (hnew : b₀.New) : ∃ past, Accounted past b₀ b :=
  hready.reach.accounted hnew fun _ hfailed =>
    Phase.noConfusion (hready.runs.symm.trans hfailed)

/-- Somebody comes to a new broker at the time `t`. -/
theorem Endures.arrival (hends : b₀.Endures t) (hnew : b₀.New) (hnow : b₀.now ≤ t)
    (id : SessionId) :
    b₀.registry.config.bufferCapacity ≤ Limits.maxBuffer ∧ ∃ b slot, Ready b₀ b t ∧
      b.hub.place id
        = ⟨some (Session.fresh b₀.registry.config.bufferCapacity {} t), some slot⟩ ∧
      slot.channel.attended = true ∧
      slot.channel.capacity = slot.channel.queue.length + b₀.config.queueCapacity ∧
      (b₀.config.queueCapacity = 0 → slot.stalledSince = some t) := by
  have hready : Ready b₀ (b₀.setClock t) t := by
    rw [hnew.initial] at hnow ⊢
    exact ⟨.passed .refl hnow, rfl, rfl, rfl⟩
  have hfree : (b₀.setClock t).registry.find? id = none := by
    show Table.get? b₀.registry.sessions id = none
    rw [hnew.sessions]
    rfl
  obtain ⟨past, hacc⟩ := hready.accounted hnew
  obtain ⟨b, hready', hhub, hfault⟩ :=
    hready.asked hends none nofun nofun [.ok id]
  obtain ⟨hbuffer, hplace⟩ := hacc.trail.sound.admits hfault rfl rfl hfree rfl
  rw [← hhub] at hplace
  exact ⟨hbuffer, b, _, hready', hplace, rfl, Nat.add_comm _ _, fun hzero => if_pos hzero⟩

/-- Events are sent until the queue of the client is full. -/
theorem Ready.filled (hready : Ready b₀ b t) (hends : b₀.Endures t) (hnew : b₀.New)
    (hplace : b.hub.place id = ⟨some s, some slot⟩) (hreads : slot.channel.attended = true)
    (hroom : slot.channel.capacity = slot.channel.queue.length + n)
    (hmark : n = 0 → slot.stalledSince = some t) :
    ∃ b' slot', Ready b₀ b' t ∧ Table.get? b'.hub.clients id = some slot' ∧
      slot'.stalledSince = some t := by
  induction n generalizing b slot with
  | zero => exact ⟨b, slot, hready, congrArg Place.slot hplace, hmark rfl⟩
  | succ n ih =>
      let e : Event := ⟨"E", "news", [], false⟩
      obtain ⟨past, hacc⟩ := hready.accounted hnew
      obtain ⟨b', hready', hhub⟩ := hready.sent hends ⟨e, .live⟩
      have hplace' : b'.hub.place id = ⟨some s, some (slot.taking [e] t)⟩ := by
        rw [hhub, hacc.trail.sound.place_act fun _ => Act.noConfusion, Place.next, if_pos rfl,
          hplace, Place.tell_some, Slot.offer_room hreads (by omega),
          show b.hub.terms.now = t from hready.now]
        rfl
      refine ih hready' hplace' hreads ?_ ?_
      · show slot.channel.capacity = (slot.channel.queue ++ [e]).length + n
        rw [hroom, List.length_append, List.length_singleton]
        omega
      · rintro rfl
        simp [Slot.taking, hroom]

/-- Events are sent that a session without a client misses. -/
theorem Ready.backlog (hready : Ready b₀ b t) (hends : b₀.Endures t) (hnew : b₀.New)
    (hplace : b.hub.place id = ⟨some s, none⟩) (hidle : s.active = false) (n : Nat) :
    ∃ b' s', Ready b₀ b' t ∧ b'.hub.place id = ⟨some s', none⟩ ∧ s'.active = false ∧
      s'.lastSeen = s.lastSeen ∧ s'.metadata = s.metadata ∧ s'.reconnects = s.reconnects ∧
      s'.missed.length = min (s.missed.length + n) b₀.registry.config.bufferCapacity := by
  have hkept : ∀ {b s}, Ready b₀ b t → b.hub.place id = ⟨some s, none⟩ →
      s.Wf ∧ s.buffer.capacity = b₀.registry.config.bufferCapacity := by
    intro b s hready hplace
    obtain ⟨past, hacc⟩ := hready.accounted hnew
    rw [← hacc.sessions]
    exact (hacc.trail.sound.place id).wf s (congrArg Place.session hplace)
  induction n with
  | zero =>
      obtain ⟨hwf, hcapacity⟩ := hkept hready hplace
      have hle : s.missed.length ≤ s.buffer.capacity := hwf.ring.length_le
      exact ⟨b, s, hready, hplace, hidle, rfl, rfl, rfl, by omega⟩
  | succ n ih =>
      let e : Event := ⟨"E", "news", [], false⟩
      obtain ⟨b', s', hready', hplace', hidle', hseen, hmeta, hreturns, hlength⟩ := ih
      obtain ⟨past, hacc⟩ := hready'.accounted hnew
      obtain ⟨b'', hready'', hhub⟩ := hready'.sent hends ⟨e, .everyone⟩
      obtain ⟨hwf, hcapacity⟩ := hkept hready' hplace'
      refine ⟨b'', (s'.miss e).1, hready'', ?_, hidle', hseen, hmeta, hreturns, ?_⟩
      · rw [hhub, hacc.trail.sound.place_act fun _ => Act.noConfusion, Place.next,
          if_neg Scope.noConfusion, hplace']
        show Place.keep ⟨some s', none⟩ e = _
        simp [Place.keep, hidle']
      · rw [hwf.missed_miss, List.rtake, List.length_drop, List.length_append,
          List.length_singleton, hcapacity]
        omega

/-- A session without a client may be claimed as long as no time has passed. -/
theorem Ready.claimable (hready : Ready b₀ b t) (hplace : b.hub.place id = ⟨some s, none⟩)
    (hidle : s.active = false) (hseen : s.lastSeen = t) (hmeta : s.metadata = {}) :
    b.registry.find? id = some s ∧ b.registry.claimable id {} = true ∧
      ∀ draws, b.hub.claim? (b.asking (some id) draws) = some id := by
  have hs : b.registry.find? id = some s := congrArg Place.session hplace
  have hfresh : b.registry.isExpired s = false := by
    simp [Registry.isExpired, Session.expired, hseen, show b.registry.now = t from hready.now]
  have hclaimable : b.registry.claimable id {} = true := by
    simp [Registry.claimable, hs, hidle, hfresh, hmeta]
  exact ⟨hs, hclaimable, fun draws =>
    Hub.claim?_iff.mpr ⟨rfl, congrArg Place.slot hplace, hclaimable⟩⟩

/-- A session without a client is asked for again, and its replay fits a queue. -/
theorem Ready.replayed (hready : Ready b₀ b t) (hends : b₀.Endures t) (hnew : b₀.New)
    (hplace : b.hub.place id = ⟨some s, none⟩) (hidle : s.active = false)
    (hseen : s.lastSeen = t) (hmeta : s.metadata = {})
    (hroom : s.reconnects.toNat ≠ Limits.maxCount) :
    ∃ b' slot, Ready b₀ b' t ∧ b'.hub.place id = ⟨some (s.reclaim none t), some slot⟩ ∧
      b₀.config.queueCapacity + s.missed.length + 1 ≤ Limits.maxQueue := by
  obtain ⟨past, hacc⟩ := hready.accounted hnew
  have hS := hacc.trail.sound
  obtain ⟨hs, hclaimable, hclaim⟩ := hready.claimable hplace hidle hseen hmeta
  obtain ⟨b', hready', hhub, hfault⟩ := hready.asked hends (some id)
    (by rintro _ ⟨⟩; exact hclaimable)
    (by rintro _ ⟨⟩ s' hs'; exact Option.some.inj (hs.symm.trans hs') ▸ hroom) []
  obtain ⟨s', hs', -, hback⟩ := hS.register_claimed hfault (hclaim [])
  obtain rfl : s = s' := Option.some.inj (hs.symm.trans hs')
  have hfits := Hub.replay_fits hfault (hclaim []) hs
  rw [Session.replay_eq, List.length_map, ((hS.place id).wf s hs).1.missed_reclaim, asking,
    Session.acknowledgedBy_none, List.drop_zero,
    show b.hub.config = b₀.config from hacc.config] at hfits
  refine ⟨b', b.hub.opening (b.asking (some id) []) id true (s.reclaim none b.hub.now).replay,
    hready', ?_, hfits⟩
  rw [hhub, hback, ← show b.hub.now = t from hready.now]
  rfl

/-- The client of a session goes. -/
theorem Ready.vacated (hready : Ready b₀ b t) (hends : b₀.Endures t) (hnew : b₀.New)
    (hplace : b.hub.place id = ⟨some s, some slot⟩) :
    ∃ b', Ready b₀ b' t ∧ b'.hub.place id = ⟨some (s.disconnect t), none⟩ := by
  obtain ⟨past, hacc⟩ := hready.accounted hnew
  obtain ⟨b', hready', hhub⟩ := hready.released hends id
  refine ⟨b', hready', ?_⟩
  rw [hhub, hacc.trail.sound.place_act fun _ => Act.noConfusion, Place.next, if_pos rfl,
    hplace, ← show b.hub.terms.now = t from hready.now]
  rfl

/-- A loop that lasts has met every limit. A client that goes and misses what its buffer holds
comes back to it, and one that stays reads nothing of what it is sent. -/
theorem Endures.bearable (hends : b₀.Endures t) (hnew : b₀.New) (hnow : b₀.now ≤ t) :
    (b₀.termsAt t).Bearable := by
  obtain ⟨hbuffer, b, slot, hready, hplace, hreads, hroom, hmark⟩ :=
    hends.arrival hnew hnow "S"
  refine ⟨hbuffer, ?_, ?_⟩
  · obtain ⟨b₁, hready₁, hplace₁⟩ := hready.vacated hends hnew hplace
    obtain ⟨b₂, s, hready₂, hplace₂, hidle, hseen, hmeta, hreturns, hlength⟩ :=
      hready₁.backlog hends hnew hplace₁ rfl b₀.registry.config.bufferCapacity
    have hroom : s.reconnects.toNat ≠ Limits.maxCount := by
      rw [hreturns]
      exact (by decide : (0 : UInt32).toNat ≠ Limits.maxCount)
    obtain ⟨-, -, -, -, hfits⟩ := hready₂.replayed hends hnew hplace₂ hidle hseen hmeta hroom
    have hmissed : s.missed.length = b₀.registry.config.bufferCapacity :=
      hlength.trans ((congrArg (min · _) (Nat.zero_add _)).trans (Nat.min_self _))
    rwa [hmissed] at hfits
  · obtain ⟨b', slot', hready', hslot', hsince⟩ :=
      hready.filled hends hnew hplace hreads hroom hmark
    obtain ⟨past, hacc⟩ := hready'.accounted hnew
    have htime := hready'.in_time hends hslot' hsince
    rwa [hacc.config] at htime

theorem serves_iff_bearable (hnew : b₀.New) (hnow : b₀.now ≤ t) :
    b₀.Serves t ↔ (b₀.termsAt t).Bearable := by
  refine ⟨fun hserves => ?_, serves_of_bearable hnew⟩
  have hends : b₀.Endures t := by
    intro b hreach hle f hfailed
    by_contra hother
    have hruns := (hserves b hreach hle (fun hstopped => by cases hfailed.symm.trans hstopped)
      fun hcounts => hother (Phase.failed.inj (hfailed.symm.trans hcounts))).1
    cases hruns.symm.trans (isRunning_of_failed hfailed)
  exact hends.bearable hnew hnow

/-- A client comes back as often as can be counted, and goes each time. -/
theorem Endures.returns (hends : b₀.Endures t) (hnew : b₀.New) (hnow : b₀.now ≤ t) {n : Nat}
    (hn : n ≤ Limits.maxCount) : ∃ b s, Ready b₀ b t ∧ b.hub.place "S" = ⟨some s, none⟩ ∧
      s.active = false ∧ s.lastSeen = t ∧ s.metadata = {} ∧ s.reconnects.toNat = n := by
  induction n with
  | zero =>
      obtain ⟨-, b, slot, hready, hplace, -⟩ := hends.arrival hnew hnow "S"
      obtain ⟨b', hready', hplace'⟩ := hready.vacated hends hnew hplace
      exact ⟨b', _, hready', hplace', rfl, rfl, rfl, rfl⟩
  | succ n ih =>
      obtain ⟨b, s, hready, hplace, hidle, hseen, hmeta, hcount⟩ := ih (Nat.le_of_succ_le hn)
      obtain ⟨b', slot, hready', hplace', -⟩ := hready.replayed hends hnew hplace hidle hseen hmeta
        (by omega)
      obtain ⟨b'', hready'', hplace''⟩ := hready'.vacated hends hnew hplace'
      refine ⟨b'', _, hready'', hplace'', rfl, rfl, hmeta, ?_⟩
      show (s.reconnects + 1).toNat = n + 1
      rw [UInt32.toNat_add, hcount]
      exact Nat.mod_eq_of_lt (Nat.lt_of_le_of_lt hn (by decide))

/-- **No setting keeps a loop from counting too far.** If it lasts until the time `t`, one client
may end it by then. -/
theorem Endures.overcounts (hends : b₀.Endures t) (hnew : b₀.New) (hnow : b₀.now ≤ t) :
    ∃ b, b₀.Reachable b ∧ b.now = t ∧ b.phase = .failed .countOverflow := by
  obtain ⟨b, s, hready, hplace, hidle, hseen, hmeta, hcount⟩ :=
    hends.returns hnew hnow (Nat.le_refl _)
  obtain ⟨past, hacc⟩ := hready.accounted hnew
  obtain ⟨hreleases, -, -⟩ := workload_eq_zero.mp hready.free
  obtain ⟨hs, hclaimable, hclaim⟩ := hready.claimable hplace hidle hseen hmeta
  have hreach := hready.waits (some "S") (by rintro _ ⟨⟩; exact hclaimable) []
  have hbusy : isIdle { b with
      serial := b.serial + 1, registrations := [(b.serial, b.asking (some "S") [])] } = false := by
    simp [isIdle, isRunning, hready.runs, workload]
  have hclock := hacc.trail.deadlines_fit (hacc.terms ▸ hready.now ▸ hends.bearable hnew hnow)
  exact ⟨_, hreach.turned hbusy, (turn_now _).trans hready.now,
    turn_overcounts ⟨hclock, hreleases, _, _, _, _, _, rfl, hclaim [], hs, hcount⟩⟩

end Limits

end Broker

/-! ## The relay -/

/-- The terms of a relay with these settings at the time `t`. -/
def Settings.terms (s : Settings) (t : Nat) : Terms := ⟨s.broker, s.registry, t⟩

namespace App

variable {settings : Settings} {now : Nat} {app : App}

/-- The registry that the relay starts with. -/
def newRegistry (settings : Settings) (now : Nat) : Registry :=
  let config := settings.registry
  (Registry.start config now).note (.sessionsConfigured config.bufferCapacity
    (Duration.seconds config.ttl) (Duration.seconds config.sweepInterval) config.strictBinding)

theorem start_eq_ok : start settings now = .ok app ↔ app.settings = settings ∧
    Broker.start settings.broker (newRegistry settings now) = .ok app.broker := by
  obtain ⟨settings', b⟩ := app
  show (Broker.start settings.broker (newRegistry settings now) >>= fun broker =>
    Except.ok (App.mk settings broker)) = _ ↔ _
  cases Broker.start settings.broker (newRegistry settings now) with
  | error f => exact iff_of_false nofun nofun
  | ok b' =>
      show Except.ok (App.mk settings b') = _ ↔ _
      rw [Except.ok.injEq, Except.ok.injEq, App.mk.injEq, eq_comm (a := settings)]

/-- The relay starts unless its intake is too large. -/
theorem starts_iff : (∃ app, start settings now = .ok app) ↔ settings.intake ≤ Limits.maxQueue := by
  have hbroker : (∃ b, Broker.start settings.broker (newRegistry settings now) = .ok b) ↔
      settings.intake ≤ Limits.maxQueue := by
    unfold Broker.start
    split
    · next hlarge => exact iff_of_false nofun (Nat.not_le_of_lt hlarge)
    · next hfits => exact iff_of_true ⟨_, rfl⟩ (Nat.le_of_not_lt hfits)
  rw [← hbroker]
  constructor
  · rintro ⟨app, hstart⟩
    exact ⟨app.broker, (start_eq_ok.mp hstart).2⟩
  · rintro ⟨b, hstart⟩
    exact ⟨⟨settings, b⟩, start_eq_ok.mpr ⟨rfl, hstart⟩⟩

theorem start_new (hstart : start settings now = .ok app) : app.broker.New :=
  Broker.new_of_start rfl (start_eq_ok.mp hstart).2

/-- The relay starts with its settings, at the time that the clock shows. -/
theorem start_termsAt (hstart : start settings now = .ok app) (t : Nat) :
    app.broker.termsAt t = settings.terms t ∧ app.broker.now = now := by
  obtain ⟨-, hbroker⟩ := start_eq_ok.mp hstart
  have hregistry := (Broker.start_hub hbroker).1
  rw [Broker.termsAt, Broker.now, Hub.now, Broker.start_config hbroker, Broker.registry, hregistry]
  exact ⟨rfl, rfl⟩

theorem start_serves (hstart : start settings now = .ok app) (span : Nat) :
    app.broker.Serves (now + span) ↔ (settings.terms (now + span)).Bearable := by
  obtain ⟨hterms, hnow⟩ := start_termsAt hstart (now + span)
  rw [← hterms]
  exact Broker.serves_iff_bearable (start_new hstart) (hnow ▸ Nat.le_add_right now span)

theorem start_overcounts (hstart : start settings now = .ok app) {span : Nat}
    (hfits : (settings.terms (now + span)).Bearable) : ∃ b, app.broker.Reachable b ∧
      b.now = now + span ∧ b.phase = .failed .countOverflow := by
  obtain ⟨hterms, hnow⟩ := start_termsAt hstart (now + span)
  have hnew := start_new hstart
  exact Broker.Endures.overcounts (fun b hreach => hreach.lasts hnew (hterms ▸ hfits)) hnew
    (hnow ▸ Nat.le_add_right now span)

/-- **What the loop survives.** The relay starts if a queue can be as large as its intake.
Its loop then serves everybody for as long as one likes, whatever clients and producers do and
however late it gets to run, if and only if buffers and queues of the sizes in the settings
can be had, and the clock can name the deadline of a client that stalls at the end. This is so
whatever the clock shows when the relay starts. Whatever the settings, there is one thing besides
that ends the loop: a session that is taken back once more than can be counted. -/
theorem serves_iff (settings : Settings) (now span : Nat) :
    ((∃ app, start settings now = .ok app) ↔ settings.intake ≤ Limits.maxQueue) ∧
    (∀ app, start settings now = .ok app →
      (app.broker.Serves (now + span) ↔ (settings.terms (now + span)).Bearable) ∧
      ((settings.terms (now + span)).Bearable → ∃ b, app.broker.Reachable b ∧
        b.now = now + span ∧ b.phase = .failed .countOverflow)) ∧
    ∀ b : Broker, b.phase = .running → (b.turn.phase = .failed .countOverflow ↔ b.Overcounts) :=
  ⟨starts_iff, fun _ hstart => ⟨start_serves hstart span, start_overcounts hstart⟩,
    fun _ => Broker.turn_overcounts_iff⟩

/-- With the default settings the loop serves everybody for a million years, on a machine that
has been running for a day. -/
theorem defaults_serve : ∃ app, start {} (Duration.ofSeconds 86400) = .ok app ∧
    app.broker.Serves (Duration.ofSeconds 86400 + Duration.ofSeconds (1000000 * 365 * 86400)) := by
  obtain ⟨hstarts, hserves, -⟩ := serves_iff {} (Duration.ofSeconds 86400)
    (Duration.ofSeconds (1000000 * 365 * 86400))
  obtain ⟨app, hstart⟩ := hstarts.mpr (by decide)
  exact ⟨app, hstart, (hserves app hstart).1.mpr ⟨by decide, by decide, by decide⟩⟩

/-- Clients have room for a greeting only, and all the time they want to read it. -/
def patient : Settings := { clientQueue := 0, slowClientTimeout := 18446744073709551615 }

/-- With settings that the command line takes, the first client ends the loop, and the next
one is told so. -/
theorem patient_fails : Settings.read (fun _ => none)
      ["--sse-client-channel-capacity", "0",
        "--sse-slow-consumer-timeout-secs", "18446744073709551615"] = .ok patient ∧
    ∃ app, start patient 0 = .ok app ∧ ¬ app.broker.Serves 0 ∧
      ∃ c b, (app.broker.register {} [.ok "S1"]).1.settle = b ∧ b.answer? 1 = some (.ok c) ∧
        b.phase = .failed .deadlineOverflow ∧
        (b.register {} [.ok "S2"]).2 = .error .shutDown := by
  refine ⟨by decide +kernel, _, rfl, ?_, ⟨⟨1⟩, "S1", false, 0⟩, _, rfl, by decide +kernel,
    by decide +kernel, by decide +kernel⟩
  intro hserves
  have hstart : start patient 0 = .ok _ := rfl
  have hclock := ((start_serves hstart 0).mp hserves).clock
  exact absurd hclock (by decide)

end App

end EventRelay
