import EventRelay.Proofs.Answers

/-!
# Whatever may come of a broker

`Broker.Reachable` is whatever may come of a broker when anybody asks for anything at any
time, and its loop gets to run as late as one likes; what time does by itself is a part of it
(`Broker.Reachable.jump`, `Broker.Reachable.sleep`). As long as the loop has not failed, what
it has done is a trail of its hub, on which everybody was admitted who was given a connection
(`Broker.Reachable.handed`).
-/

namespace EventRelay

namespace Broker

variable {b b' b₀ : Broker} {o : Option Act} {a : Act} {past : List Moment}

/-! ## Whatever may happen -/

/-- What may come of a broker, in whatever order things happen and however late the loop
gets to run. The loop may fail on the way. -/
inductive Reachable (b₀ : Broker) : Broker → Prop
  | refl : Reachable b₀ b₀
  | moved {b b' : Broker} {o : Option Act} (hreach : Reachable b₀ b) (hmove : b.Move o b') :
      Reachable b₀ b'
  | turned {b : Broker} (hreach : Reachable b₀ b) (hbusy : b.isIdle = false) : Reachable b₀ b.turn
  | passed {b : Broker} {t : Nat} (hreach : Reachable b₀ b) (hnow : b.now ≤ t) :
      Reachable b₀ (b.setClock t)

/-- A turn takes no time, whether the loop ends in it or not. -/
theorem sameTime_turn (b : Broker) : b.registry.SameTime b.turn.registry := by
  rcases b.turn_course with ⟨f, hfails⟩ | ⟨a, hturn⟩
  · generalize b.turn = b' at hfails
    cases hfails with
    | late => exact .refl _
    | counting => exact b.registry.sameTime_hold _
    | admitting => exact b.hub.sameTime_register _
  · rw [registry, registry, hturn.hub]
    exact b.hub.sameTime_act hturn.ne.1

theorem turn_now (b : Broker) : b.turn.now = b.now := b.sameTime_turn.1

/-- No move turns back the clock. -/
theorem Move.now_le (hmove : b.Move o b') : b.now ≤ b'.now := by
  have hsame : ∀ {r r' : Registry}, r.SameTime r' → r.now ≤ r'.now :=
    fun htime => Nat.le_of_eq htime.1.symm
  cases o with
  | none => exact Nat.le_of_eq (congrArg Terms.now hmove.quiet.terms).symm
  | some a =>
      cases hmove with
      | looked id => exact hsame (b.registry.sameTime_lookup id)
      | read c =>
          obtain ⟨h, rfl | rfl, heq⟩ := b.read_eq c
          · exact Nat.le_of_eq (congrArg Broker.now heq).symm
          · rw [heq]
            exact hsame (b.hub.sameTime_act (a := .read c) nofun)
      | left c => exact hsame (b.hub.sameTime_act (a := .leave c) nofun)
      | turned => exact Nat.le_of_eq b.turn_now.symm
      | swept hticker hdue =>
          rw [runSweeper_eq hticker hdue]
          exact Nat.le_of_eq b.registry.sameTime_sweep.1.symm
      | stopped hruns hfirst hclock =>
          obtain ⟨h, -, hregistry, heq⟩ := stop_eq hruns hfirst hclock
          rw [heq]
          show b.registry.now ≤ h.registry.now
          rw [hregistry]
          exact hsame (b.hub.sameTime_act (a := .stop) nofun)
      | waited hrest hnow hsmooth => exact hnow

/-- A loop that has ended stays as it ended. -/
theorem Move.phase_eq (hmove : b.Move o b') (hphase : b.isRunning = false) :
    b'.phase = b.phase := by
  rcases hmove.drives with ⟨hsame, -⟩ | ⟨a, -, hbusy, -⟩ | ⟨hruns, -⟩
  · exact hsame
  · cases hbusy.symm.trans (isIdle_of_not_running hphase)
  · cases hruns.symm.trans hphase

/-- A loop that runs has run before. -/
theorem Move.running_before (hmove : b.Move o b') (hruns : b'.phase = .running) :
    b.phase = .running := by
  by_contra hphase
  exact hphase ((hmove.phase_eq (beq_false_of_ne hphase)).symm.trans hruns)

/-- The terms of a broker with these settings at the time `t`. -/
def termsAt (b : Broker) (t : Nat) : Terms := ⟨b.config, b.registry.config, t⟩

/-- The broker has come from another by a trail of its hub, which has the same settings. -/
structure Accounted (past : List Moment) (b₀ b : Broker) : Prop where
  trail : Trail past b.hub
  fresh : Fresh past b
  config : b.config = b₀.config
  sessions : b.registry.config = b₀.registry.config

theorem Accounted.terms (hacc : Accounted past b₀ b) :
    b.hub.terms = b₀.termsAt b.now := by
  rw [termsAt, ← hacc.config, ← hacc.sessions]
  rfl

theorem Accounted.quiet (hacc : Accounted past b₀ b) (hmove : b.Move none b') :
    Accounted past b₀ b' where
  trail := hacc.trail.aside hmove.quiet
  fresh := hacc.fresh.move hmove
  config := (congrArg Terms.config hmove.quiet.terms).trans hacc.config
  sessions := (congrArg Terms.sessions hmove.quiet.terms).trans hacc.sessions

theorem Accounted.act (hacc : Accounted past b₀ b) (hmove : b.Move (some a) b') (hgoes : b.Goes) :
    Accounted (⟨a, b.hub⟩ :: past) b₀ b' := by
  obtain ⟨hu, hfault⟩ := hmove.act hgoes
  obtain ⟨htrail, hfresh⟩ := hacc.fresh.act hacc.trail hmove hgoes
  have hterms := hu.terms.trans (hacc.trail.sound.terms_act a hfault)
  exact ⟨htrail, hfresh, (congrArg Terms.config hterms).trans hacc.config,
    (congrArg Terms.sessions hterms).trans hacc.sessions⟩

theorem Accounted.passed (hacc : Accounted past b₀ b) {t : Nat} (hnow : b.now ≤ t) :
    Accounted (⟨.wait (t - b.now), b.hub⟩ :: past) b₀ (b.setClock t) := by
  have hclock : (b.hub.act (.wait (t - b.now))).1 = (b.setClock t).hub := by
    rw [Hub.act, show b.hub.now + (t - b.now) = t from Nat.add_sub_cancel' hnow]
    rfl
  exact ⟨hclock ▸ hacc.trail.step (.wait (t - b.now)) trivial rfl,
    ⟨hacc.fresh.nodup, hacc.fresh.old⟩, hacc.config, hacc.sessions⟩

/-- The broker was just started, and there are no sessions. -/
structure New (b : Broker) : Prop where
  trail : Trail [] b.hub
  sessions : b.registry.sessions = []
  initial : b = { hub := b.hub, heartbeat := b.heartbeat }

theorem start_config {config : Config} {registry : Registry}
    (hstart : Broker.start config registry = .ok b) : b.config = config := by
  rw [Broker.start] at hstart
  split at hstart
  · cases hstart
  · obtain rfl := Except.ok.inj hstart
    rfl

theorem new_of_start {config : Config} {registry : Registry} (hempty : registry.sessions = [])
    (hstart : Broker.start config registry = .ok b) : b.New where
  trail := .start hempty hstart
  sessions := by rw [Broker.registry, (Broker.start_hub hstart).1, hempty]
  initial := by rw [start_eq hstart]

/-- What a loop that has not failed has done is a trail, and who was given a connection was
admitted on it. -/
theorem Reachable.handed (hnew : b₀.New) (hreach : b₀.Reachable b) (hgoes : b.Goes) :
    ∃ past, Accounted past b₀ b ∧
      ∀ n c, (n, .ok c) ∈ b.answers → c ∈ handles (past.map Moment.occurrence) := by
  have hacted : ∀ {past : List Moment} {b b' : Broker} {a : Act}, b.Move (some a) b' → b.Goes →
      (∀ n c, (n, .ok c) ∈ b.answers → c ∈ handles (past.map Moment.occurrence)) →
      ∀ n c, (n, .ok c) ∈ b'.answers →
        c ∈ handles ((⟨a, b.hub⟩ :: past : List Moment).map Moment.occurrence) := by
    intro past b b' a hmove hbefore hold n c hmem
    refine mem_handles_cons.mpr ?_
    rcases hmove.handed hbefore hmem with hmem | ⟨a', ha, hout⟩
    · exact Or.inr (hold n c hmem)
    · exact Or.inl (Option.some.inj ha ▸ hout)
  induction hreach with
  | refl =>
      refine ⟨[], ⟨hnew.trail, ?_, rfl, rfl⟩, ?_⟩
      · rw [hnew.initial]
        exact ⟨List.nodup_nil, nofun⟩
      · rw [hnew.initial]
        nofun
  | @moved b b' o hreach hmove ih =>
      have hbefore : b.Goes := hgoes.before hmove.phase_eq
      obtain ⟨past, hacc, hold⟩ := ih hbefore
      cases o with
      | none =>
          refine ⟨past, hacc.quiet hmove, fun n c hmem => ?_⟩
          rcases hmove.handed hbefore hmem with hmem | ⟨a, ha, -⟩
          · exact hold n c hmem
          · cases ha
      | some a => exact ⟨_, hacc.act hmove hbefore, hacted hmove hbefore hold⟩
  | @turned b hreach hbusy ih =>
      have hbefore : b.Goes := hgoes.before fun hphase => by
        cases hbusy.symm.trans (isIdle_of_not_running hphase)
      obtain ⟨past, hacc, hold⟩ := ih hbefore
      rcases b.turn_cases with ⟨⟨f, hfailed⟩, -⟩ | ⟨a, hturn⟩
      · exact absurd hfailed (hgoes f)
      · have hmove := Move.turned hbusy hturn
        exact ⟨_, hacc.act hmove hbefore, hacted hmove hbefore hold⟩
  | passed hreach hnow ih =>
      obtain ⟨past, hacc, hold⟩ := ih hgoes
      exact ⟨_, hacc.passed hnow, hold⟩

theorem Reachable.accounted (hnew : b₀.New) (hreach : b₀.Reachable b) (hgoes : b.Goes) :
    ∃ past, Accounted past b₀ b := by
  obtain ⟨past, hacc, -⟩ := hreach.handed hnew hgoes
  exact ⟨past, hacc⟩

/-! ## Time passes -/

/-- A turn leads on, takes no time, and does not stop the loop. -/
theorem Reachable.kept {c : Broker} (hkept : b₀.Reachable c ∧ c.now = b.now ∧
    (c.phase = .stopped → b.phase = .stopped)) (hbusy : c.isIdle = false) :
    b₀.Reachable c.turn ∧ c.turn.now = b.now ∧ (c.turn.phase = .stopped → b.phase = .stopped) := by
  obtain ⟨hreach, hnow, hphase⟩ := hkept
  refine ⟨hreach.turned hbusy, c.turn_now.trans hnow, fun hstopped => ?_⟩
  rcases c.turn_cases with ⟨⟨f, hfailed⟩, -⟩ | ⟨a, hturn⟩
  · cases hfailed.symm.trans hstopped
  · exact hphase (hturn.phase.symm.trans hstopped)

theorem Reachable.turns (hreach : b₀.Reachable b) (n : Nat) :
    b₀.Reachable (turns n b) ∧ (Broker.turns n b).now = b.now ∧
      ((Broker.turns n b).phase = .stopped → b.phase = .stopped) :=
  turns_keep (P := fun c => b₀.Reachable c ∧ c.now = b.now ∧
    (c.phase = .stopped → b.phase = .stopped)) (fun _ => Reachable.kept) n ⟨hreach, rfl, id⟩

theorem Reachable.spells (hreach : b₀.Reachable b) (enough : Broker → Bool) (n : Nat) :
    b₀.Reachable (spells enough n b) ∧ (Broker.spells enough n b).now = b.now ∧
      ((Broker.spells enough n b).phase = .stopped → b.phase = .stopped) :=
  spells_keep (P := fun c => b₀.Reachable c ∧ c.now = b.now ∧
    (c.phase = .stopped → b.phase = .stopped)) (fun _ => Reachable.kept)
    (fun _ hkept => ⟨hkept.1.moved .letIn, hkept.2⟩) enough n ⟨hreach, rfl, id⟩

theorem Reachable.ring (hreach : b₀.Reachable b) (alarm : Alarm) :
    b₀.Reachable (b.ring alarm) ∧ (b.ring alarm).now = b.now := by
  cases alarm with
  | sweep =>
      rcases b.runSweeper_cases with heq | ⟨ticker, hticker, hdue⟩
      · rw [Broker.ring, heq]
        exact ⟨hreach.moved (.set .sweep), rfl⟩
      · have hnow := b.registry.sameTime_sweep.1
        rw [Broker.ring]
        refine ⟨(hreach.moved (.swept hticker hdue)).moved (.set .sweep), ?_⟩
        rwa [runSweeper_eq hticker hdue]
  | heartbeat =>
      obtain ⟨h, intake, hu, -, heq⟩ := b.runHeartbeat_eq
      refine ⟨(hreach.moved .beat).moved (.set .heartbeat), ?_⟩
      rw [Broker.ring, heq]
      exact congrArg Terms.now hu.terms
  | stall =>
      obtain ⟨hreach', hnow, -⟩ := hreach.spells (fun _ => false) b.spellBound
      exact ⟨hreach', hnow⟩

theorem Reachable.runDue (hreach : b₀.Reachable b) :
    b₀.Reachable b.runDue ∧ b.runDue.now = b.now := by
  have hrung : ∀ {b : Broker} (alarms : List Alarm), b₀.Reachable b →
      b₀.Reachable (alarms.foldl Broker.ring b) ∧ (alarms.foldl Broker.ring b).now = b.now := by
    intro b alarms hreach
    induction alarms generalizing b with
    | nil => exact ⟨hreach, rfl⟩
    | cons alarm alarms ih =>
        obtain ⟨hreach', hnow⟩ := hreach.ring alarm
        exact ⟨(ih hreach').1, (ih hreach').2.trans hnow⟩
  obtain ⟨hreach', hnow⟩ := hrung (b.dueAlarms.map (·.2)) hreach
  obtain ⟨hreach'', hnow', -⟩ := hreach'.spells (fun _ => false) (Broker.spellBound _)
  exact ⟨hreach'', hnow'.trans hnow⟩

/-- To move the clock at once is one of the things that may happen. -/
theorem Reachable.jump (hreach : b₀.Reachable b) (span : Nat) : b₀.Reachable (b.jump span) :=
  (((hreach.passed (Nat.le_add_right b.now span)).turns _).1.runDue).1

/-- To let time pass smoothly is one of the things that may happen. -/
theorem Reachable.sleep (hreach : b₀.Reachable b) (span : Nat) : b₀.Reachable (b.sleep span) := by
  have hhalt : ∀ {b : Broker} {t : Nat}, b₀.Reachable b → b.now ≤ t →
      b₀.Reachable (b.setClock t).runDue ∧ (b.setClock t).runDue.now = t :=
    fun hreach hnow => (hreach.passed hnow).runDue
  have hglide : ∀ {target now : Nat} {b : Broker}, b₀.Reachable b → b.now ≤ now → now ≤ target →
      b₀.Reachable (Clock.glide nextDue (fun t b => (b.setClock t).runDue) target now b) := by
    intro target now b hreach hnow htarget
    fun_induction Clock.glide with
    | case1 => exact (hhalt hreach (hnow.trans htarget)).1
    | case2 now b t hnext hbetween ih =>
        obtain ⟨hreach', hnow'⟩ := hhalt hreach (hnow.trans (Nat.le_of_lt hbetween.1))
        exact ih hreach' (Nat.le_of_eq hnow') (Nat.le_of_lt hbetween.2)
    | case3 => exact (hhalt hreach (hnow.trans htarget)).1
  obtain ⟨hreach', hnow', -⟩ := hreach.spells (fun _ => false) b.spellBound
  exact hglide hreach' (Nat.le_of_eq hnow') (Nat.le_add_right _ _)

end Broker

end EventRelay
