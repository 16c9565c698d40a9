import EventRelay.Proofs.Life

/-!
# Letting time pass

What the loop does by itself is a part of the broker's life, and so is the passing of
time: `sleep` stops the clock at every moment at which something is due, and the loop
comes to rest before the clock moves on. `sleep_onward` says this of every sleep in which
the loop does not fail, and that no timer is late at its end.
-/

namespace EventRelay

namespace Broker

variable {b b' b'' : Broker} {past new new' : List Moment} {alarm : Alarm}

/-! ## What happens by itself -/

/-- A part of a life in which nobody reads, with its acts. -/
inductive Onward (b : Broker) : List Moment → Broker → Prop
  | refl : Onward b [] b
  | quiet {new : List Moment} {b' b'' : Broker} (honward : Onward b new b')
      (hmove : b'.Move none b'') : Onward b new b''
  | act {new : List Moment} {b' b'' : Broker} {a : Act} (honward : Onward b new b')
      (hmove : b'.Move (some a) b'') (hreads : ∀ c, a ≠ .read c) :
      Onward b (⟨a, b'.hub⟩ :: new) b''

theorem Onward.trans (honward : b.Onward new b') (honward' : b'.Onward new' b'') :
    b.Onward (new' ++ new) b'' := by
  induction honward' with
  | refl => exact honward
  | quiet _ hmove ih => exact ih.quiet hmove
  | act _ hmove hreads ih => exact ih.act hmove hreads

theorem Onward.unread (honward : b.Onward new b') {y : Moment} (hy : y ∈ new) (c : Client) :
    y.act ≠ .read c := by
  induction honward with
  | refl => cases hy
  | quiet _ _ ih => exact ih hy
  | act _ _ hreads ih =>
      rcases List.mem_cons.mp hy with rfl | hy
      · exact hreads c
      · exact ih hy

theorem Life.onward (hlife : Life past b) (honward : b.Onward new b') : Life (new ++ past) b' := by
  induction honward with
  | refl => exact hlife
  | quiet _ hmove ih => exact ih.quiet hmove
  | act _ hmove _ ih => exact ih.act hmove

/-- The loop, which takes no time, leads from one broker to the other. -/
structure Works (b b' : Broker) : Prop where
  onward : ∃ new, b.Onward new b'
  heartbeat : b'.heartbeat = b.heartbeat
  time : b.registry.SameTime b'.registry

theorem Works.refl (b : Broker) : b.Works b := ⟨⟨[], .refl⟩, rfl, .refl _⟩

theorem Works.trans (hworks : b.Works b') (hworks' : b'.Works b'') : b.Works b'' := by
  obtain ⟨new, honward⟩ := hworks.onward
  obtain ⟨new', honward'⟩ := hworks'.onward
  exact ⟨⟨_, honward.trans honward'⟩, hworks'.heartbeat.trans hworks.heartbeat,
    hworks.time.trans hworks'.time⟩

/-- The loop has not ended by itself. -/
def Goes (b : Broker) : Prop := ∀ f, b.phase ≠ .failed f

theorem not_running_of_not_goes (hfailed : ¬ b.Goes) : b.isRunning = false := by
  obtain ⟨f, hf⟩ := Classical.not_forall.mp hfailed
  exact isRunning_of_failed (Classical.not_not.mp hf)

theorem goes_of_running (hruns : b.phase = .running) : b.Goes :=
  fun _ hfailed => Phase.noConfusion (hruns.symm.trans hfailed)

/-- A loop that goes at the end has gone before, if the end of a loop is for good. -/
theorem Goes.before (hgoes : b'.Goes) (hstays : b.isRunning = false → b'.phase = b.phase) :
    b.Goes := by
  by_contra hfailed
  rw [Goes, hstays (not_running_of_not_goes hfailed)] at hgoes
  exact hfailed hgoes

/-- The loop works and nothing else happens, with its acts. -/
inductive Toil (b : Broker) : List Moment → Broker → Prop
  | refl : Toil b [] b
  | turned {new : List Moment} {b' : Broker} {a : Act} (htoil : Toil b new b')
      (hbusy : b'.isIdle = false) (hturn : b'.Turn a b'.turn) : Toil b (⟨a, b'.hub⟩ :: new) b'.turn
  | letIn {new : List Moment} {b' : Broker} (htoil : Toil b new b') : Toil b new b'.letIn

theorem Toil.trans (htoil : b.Toil new b') (htoil' : b'.Toil new' b'') :
    b.Toil (new' ++ new) b'' := by
  induction htoil' with
  | refl => exact htoil
  | turned _ hbusy hturn ih => exact ih.turned hbusy hturn
  | letIn _ ih => exact ih.letIn

theorem turns_toil (n : Nat) (hgoes : (turns n b).Goes) : ∃ new, b.Toil new (turns n b) := by
  induction n generalizing b with
  | zero => exact ⟨[], .refl⟩
  | succ n ih =>
      rw [turns] at hgoes ⊢
      split at hgoes
      · next hidle =>
          rw [if_pos hidle]
          exact ⟨[], .refl⟩
      · next hbusy =>
          rw [if_neg hbusy]
          have hturned : b.turn.Goes := hgoes.before fun hphase => by
            rw [turns_of_idle n (isIdle_of_not_running hphase)]
          obtain ⟨a, hturn⟩ := b.turn_cases.resolve_left fun hends =>
            hends.1.elim fun f hfailed => hturned f hfailed
          obtain ⟨new, htoil⟩ := ih hgoes
          exact ⟨_, (Toil.refl.turned (Bool.not_eq_true _ ▸ hbusy) hturn).trans htoil⟩

theorem spells_toil (enough : Broker → Bool) (n : Nat) (hgoes : (spells enough n b).Goes) :
    ∃ new, b.Toil new (spells enough n b) := by
  induction n generalizing b with
  | zero => exact ⟨[], .refl⟩
  | succ n ih =>
      rw [spells] at hgoes ⊢
      split at hgoes
      · next hdone =>
          rw [if_pos hdone]
          exact ⟨[], .refl⟩
      · next hmore =>
          rw [if_neg hmore]
          have hspell : b.spell.Goes :=
            hgoes.before fun hphase => spells_phase enough n (b := b.spell.letIn) hphase
          obtain ⟨new, htoil⟩ := turns_toil spellLength hspell
          obtain ⟨new', htoil'⟩ := ih hgoes
          exact ⟨_, htoil.letIn.trans htoil'⟩

theorem Toil.works (htoil : b.Toil new b') : b.Works b' := by
  induction htoil with
  | refl => exact .refl b
  | @turned new b' a htoil hbusy hturn ih =>
      refine ih.trans ⟨⟨_, Onward.refl.act (.turned hbusy hturn) hturn.ne.2⟩, hturn.heartbeat, ?_⟩
      rw [registry, registry, hturn.hub]
      exact b'.hub.sameTime_act hturn.ne.1
  | letIn htoil ih => exact ih.trans ⟨⟨_, Onward.refl.quiet .letIn⟩, rfl, .refl _⟩

theorem settle_works (hgoes : b.settle.Goes) : b.Works b.settle := by
  obtain ⟨new, htoil⟩ := spells_toil _ _ hgoes
  exact htoil.works

theorem settle_phase (hphase : b.isRunning = false) : b.settle.phase = b.phase :=
  spells_phase _ _ hphase

/-! ## Alarms -/

/-- The alarm should have gone off by now. -/
def Due (b : Broker) (alarm : Alarm) : Prop := ∃ t, b.alarmAt alarm = some t ∧ t ≤ b.now

/-- Neither timer is late. -/
def Punctual (b : Broker) : Prop := ∀ alarm, alarm ≠ .stall → ¬ b.Due alarm

theorem fire_later {ticker : Ticker} (hperiod : Ticker.minPeriod ≤ ticker.period) {now t : Nat}
    (ht : (ticker.fire now).due = some t) : now < t := by
  unfold Ticker.fire at ht
  split at ht
  · next hnone => cases hnone.symm.trans ht
  · next due hdue =>
      have hbase : now < (if due + Ticker.tolerance < now then now else due) + ticker.period := by
        have htolerance : Ticker.tolerance < Ticker.minPeriod := by decide
        split <;> omega
      obtain ⟨-, ht⟩ := Option.ite_none_right_eq_some.mp ht
      exact Option.some.inj ht ▸ hbase

theorem Works.due (hworks : b.Works b') (hphase : b.isRunning = false → b'.isRunning = false)
    (halarm : alarm ≠ .stall) (hdue : b'.Due alarm) : b.Due alarm := by
  obtain ⟨t, hat, hle⟩ := hdue
  obtain ⟨hnow, hsweeper⟩ := hworks.time
  have hnow' : b'.now = b.now := hnow
  refine ⟨t, ?_, hnow' ▸ hle⟩
  cases alarm with
  | sweep =>
      rw [alarmAt, Registry.nextSweep, hsweeper] at hat
      exact hat
  | heartbeat =>
      rw [alarmAt, hworks.heartbeat] at hat
      cases hruns : b.isRunning with
      | true =>
          rw [alarmAt, hruns]
          split at hat
          · exact hat
          · cases hat
      | false =>
          rw [hphase hruns] at hat
          cases hat
  | stall => exact absurd rfl halarm

theorem ring_phase (hphase : b.isRunning = false) (alarm : Alarm) :
    (b.ring alarm).phase = b.phase := by
  cases alarm with
  | sweep => rfl
  | heartbeat =>
      obtain ⟨h, intake, -, -, heq⟩ := b.runHeartbeat_eq
      rw [ring, heq]
      rfl
  | stall => exact settle_phase hphase

theorem foldl_ring_phase (alarms : List Alarm) (hphase : b.isRunning = false) :
    (alarms.foldl ring b).phase = b.phase := by
  induction alarms generalizing b with
  | nil => rfl
  | cons alarm alarms ih =>
      have hring := ring_phase hphase alarm
      have hstays : (b.ring alarm).isRunning = false := by rw [isRunning, hring]; exact hphase
      exact (ih hstays).trans hring

/-- What happens by itself between two points without taking time. Of the timers that are
late at the end, none is among the alarms that went off. -/
structure Rings (b : Broker) (alarms : List Alarm) (b' : Broker) : Prop where
  onward : ∃ new, b.Onward new b'
  now : b'.now = b.now
  due : ∀ other, other ≠ .stall → b'.Due other → b.Due other ∧ other ∉ alarms

theorem Rings.refl (b : Broker) : b.Rings [] b :=
  ⟨⟨[], .refl⟩, rfl, fun _ _ hdue => ⟨hdue, List.not_mem_nil⟩⟩

theorem Rings.trans {alarms alarms' : List Alarm} (hrings : b.Rings alarms b')
    (hrings' : b'.Rings alarms' b'') : b.Rings (alarms ++ alarms') b'' := by
  obtain ⟨⟨new, honward⟩, hnow, hdues⟩ := hrings
  obtain ⟨⟨new', honward'⟩, hnow', hdues'⟩ := hrings'
  refine ⟨⟨_, honward.trans honward'⟩, hnow'.trans hnow, fun other hother hdue => ?_⟩
  obtain ⟨hdue', hnotin'⟩ := hdues' other hother hdue
  obtain ⟨hdue'', hnotin⟩ := hdues other hother hdue'
  exact ⟨hdue'', fun hmem => (List.mem_append.mp hmem).elim hnotin hnotin'⟩

theorem Works.rings (hworks : b.Works b') (hphase : b.isRunning = false → b'.isRunning = false) :
    b.Rings [] b' :=
  ⟨hworks.onward, hworks.time.1,
    fun _ hother hdue => ⟨hworks.due hphase hother hdue, List.not_mem_nil⟩⟩

theorem settle_rings (hgoes : b.settle.Goes) : b.Rings [] b.settle :=
  (settle_works hgoes).rings fun hphase => by rwa [isRunning, settle_phase hphase]

/-- The sweep is due, or has been done already. -/
theorem runSweeper_cases (b : Broker) : b.runSweeper = b ∨
    ∃ ticker, b.registry.sweeper = some ticker ∧ ticker.isDue b.registry.now = true := by
  cases hticker : b.registry.sweeper with
  | none =>
      refine Or.inl ?_
      rw [runSweeper, Registry.runSweeper, hticker]
      rfl
  | some ticker =>
      by_cases hdue : ticker.isDue b.registry.now = true
      · exact Or.inr ⟨ticker, rfl, hdue⟩
      · refine Or.inl ?_
        rw [runSweeper, Registry.runSweeper, hticker]
        dsimp only
        rw [if_neg hdue]
        rfl

theorem sweep_rings (hlife : Life past b) : b.Rings [.sweep] (b.ring .sweep) := by
  by_cases hdue : ∃ ticker, b.registry.sweeper = some ticker ∧ ticker.isDue b.registry.now = true
  · obtain ⟨ticker, hticker, hdue⟩ := hdue
    have heq := runSweeper_eq hticker hdue
    have hnow : (b.ring .sweep).now = b.now := by
      rw [ring, heq]
      exact b.registry.sameTime_sweep.1
    have honward := (Onward.refl.act (.swept hticker hdue) fun _ => Act.noConfusion).quiet
      (.set .sweep)
    refine ⟨⟨_, honward⟩, hnow, ?_⟩
    rintro other hother ⟨t, hat, hle⟩
    rw [hnow] at hle
    cases other with
    | sweep =>
        have hfired : (b.ring .sweep).alarmAt .sweep = (ticker.fire b.registry.now).due := by
          rw [ring, heq]
          rfl
        have hlater := fire_later (hlife.periods.2 ticker hticker) (hfired ▸ hat)
        exact absurd hle (Nat.not_le_of_lt hlater)
    | heartbeat => exact ⟨⟨t, hat, hle⟩, by decide⟩
    | stall => exact absurd rfl hother
  · have heq := b.runSweeper_cases.resolve_right hdue
    rw [ring, heq]
    refine ⟨⟨_, Onward.refl.quiet (.set .sweep)⟩, rfl, ?_⟩
    rintro other hother ⟨t, hat, hle⟩
    refine ⟨⟨t, by cases other <;> exact hat, hle⟩, ?_⟩
    rw [List.mem_singleton]
    rintro rfl
    obtain ⟨ticker, hticker, ht⟩ := Option.bind_eq_some_iff.mp hat
    refine hdue ⟨ticker, hticker, ?_⟩
    rw [Ticker.isDue, ht, Option.any_some, decide_eq_true_iff]
    exact hle

theorem heartbeat_rings (hlife : Life past b) : b.Rings [.heartbeat] (b.ring .heartbeat) := by
  have hfired : (b.ring .heartbeat).heartbeat = b.heartbeat.fire b.now ∧
      (b.ring .heartbeat).registry = b.registry ∧ (b.ring .heartbeat).now = b.now := by
    obtain ⟨h, intake, hu, hregistry, heq⟩ := b.runHeartbeat_eq
    rw [ring, heq]
    exact ⟨rfl, hregistry, congrArg Terms.now hu.terms⟩
  obtain ⟨hheartbeat, hregistry, hnow⟩ := hfired
  refine ⟨⟨_, (Onward.refl.quiet .beat).quiet (.set .heartbeat)⟩, hnow, ?_⟩
  rintro other hother ⟨t, hat, hle⟩
  rw [hnow] at hle
  cases other with
  | sweep =>
      rw [alarmAt, hregistry] at hat
      exact ⟨⟨t, hat, hle⟩, by decide⟩
  | heartbeat =>
      rw [alarmAt, hheartbeat] at hat
      split at hat
      · exact absurd hle (Nat.not_le_of_lt (fire_later hlife.periods.1 hat))
      · cases hat
  | stall => exact absurd rfl hother

theorem ring_rings (hlife : Life past b) (alarm : Alarm) (hgoes : (b.ring alarm).Goes) :
    b.Rings [alarm] (b.ring alarm) := by
  cases alarm with
  | sweep => exact sweep_rings hlife
  | heartbeat => exact heartbeat_rings hlife
  | stall =>
      obtain ⟨honward, hnow, hdues⟩ := settle_rings hgoes
      refine ⟨honward, hnow, fun other hother hdue => ⟨(hdues other hother hdue).1, ?_⟩⟩
      rwa [List.mem_singleton]

theorem foldl_ring_rings (alarms : List Alarm) (hlife : Life past b)
    (hgoes : (alarms.foldl ring b).Goes) : b.Rings alarms (alarms.foldl ring b) := by
  induction alarms generalizing past b with
  | nil => exact .refl b
  | cons alarm alarms ih =>
      have hrings := ring_rings hlife alarm (hgoes.before (foldl_ring_phase alarms))
      obtain ⟨new, honward⟩ := hrings.onward
      exact hrings.trans (ih (hlife.onward honward) hgoes)

theorem mem_dueAlarms (hmem : alarm ∈ b.alarms) (hdue : b.Due alarm) :
    alarm ∈ b.dueAlarms.map (·.2) := by
  obtain ⟨t, hat, hle⟩ := hdue
  refine List.mem_map.mpr ⟨(t, alarm), List.mem_mergeSort.mpr (List.mem_filter.mpr ⟨?_, ?_⟩), rfl⟩
  · exact List.mem_filterMap.mpr ⟨alarm, hmem, by rw [hat]; rfl⟩
  · exact decide_eq_true hle

/-- It is `t`, nothing is left to do, and no timer is late. -/
structure RestsAt (b : Broker) (t : Nat) : Prop where
  rest : b.AtRest
  punctual : b.Punctual
  now : b.now = t

/-- When all that is due has been done, the loop is at rest and no timer is late. -/
theorem runDue_onward (hlife : Life past b) (hgoes : b.runDue.Goes) :
    (∃ new, b.Onward new b.runDue) ∧ b.runDue.RestsAt b.now := by
  have hrings := foldl_ring_rings (b.dueAlarms.map (·.2)) hlife (hgoes.before settle_phase)
  obtain ⟨new, honward⟩ := hrings.onward
  obtain ⟨honward', hnow, hdues⟩ := hrings.trans (settle_rings hgoes)
  refine ⟨honward', settle_atRest (hlife.onward honward).orderly, ?_, hnow⟩
  intro alarm halarm hdue
  obtain ⟨hdue', hnotin⟩ := hdues alarm halarm hdue
  exact hnotin (List.mem_append_left _ (mem_dueAlarms (hlife.mem_alarms alarm) hdue'))

/-! ## Smooth time -/

/-- What happens by itself next happens later, if the loop is at rest and no timer is late. -/
theorem nextDue_later (hrest : b.AtRest) (hpunctual : b.Punctual) {t : Nat}
    (hnext : b.nextDue = some t) : b.now < t := by
  rw [nextDue, List.min?_eq_some_iff] at hnext
  obtain ⟨alarm, -, hat⟩ := List.mem_filterMap.mp hnext.1
  by_contra hle
  by_cases halarm : alarm = .stall
  · subst halarm
    rw [alarmAt] at hat
    split at hat
    · next hruns =>
        have hidle := hrest.1
        rw [Bool.and_eq_true] at hruns
        simp only [isIdle, hruns.1, hruns.2, Bool.not_true, Bool.false_or, Bool.true_and,
          Bool.and_eq_true, Bool.not_eq_true', isReapDue, hat, Option.any_some,
          decide_eq_false_iff_not] at hidle
        exact hle (Nat.lt_of_not_le hidle.1)
    · cases hat
  · exact hpunctual alarm halarm ⟨t, hat, Nat.le_of_not_lt hle⟩

/-- The clock moves on to the next moment at which something is due, or to an earlier one. -/
theorem halt_onward (hlife : Life past b) (hrest : b.AtRest) {t : Nat} (hnow : b.now ≤ t)
    (hsmooth : ∀ due, b.nextDue = some due → t ≤ due) (hgoes : (b.setClock t).runDue.Goes) :
    (∃ new, b.Onward new (b.setClock t).runDue) ∧ (b.setClock t).runDue.RestsAt t := by
  have honward := (Onward.refl (b := b)).act (.waited hrest hnow hsmooth) fun _ => Act.noConfusion
  obtain ⟨⟨new, honward'⟩, hend⟩ := runDue_onward (hlife.onward honward) hgoes
  exact ⟨⟨_, honward.trans honward'⟩, hend⟩

theorem runDue_phase (hphase : b.isRunning = false) : b.runDue.phase = b.phase := by
  have hrung := foldl_ring_phase (b.dueAlarms.map (·.2)) hphase
  have hstays : ((b.dueAlarms.map (·.2)).foldl ring b).isRunning = false := by
    rw [isRunning, hrung]
    exact hphase
  exact (settle_phase hstays).trans hrung

theorem glide_phase (target now : Nat) (b : Broker) (hphase : b.isRunning = false) :
    (Clock.glide nextDue (fun t b => (b.setClock t).runDue) target now b).phase = b.phase := by
  have hstep : ∀ (t : Nat) (b : Broker), b.isRunning = false →
      (b.setClock t).runDue.phase = b.phase :=
    fun t b hphase => runDue_phase (b := b.setClock t) hphase
  fun_induction Clock.glide with
  | case1 now b hnext => exact hstep target b hphase
  | case2 now b t hnext hbetween ih =>
      have hstays := hstep t b hphase
      refine (ih ?_).trans hstays
      rw [isRunning, hstays]
      exact hphase
  | case3 now b t hnext hbetween => exact hstep target b hphase

theorem glide_onward {target now : Nat} (hlife : Life past b) (hstart : b.RestsAt now)
    (hle : now ≤ target)
    (hgoes : (Clock.glide nextDue (fun t b => (b.setClock t).runDue) target now b).Goes) :
    ∃ b' new, Clock.glide nextDue (fun t b => (b.setClock t).runDue) target now b = b' ∧
      b.Onward new b' ∧ b'.RestsAt target := by
  fun_induction Clock.glide generalizing past with
  | case1 now b hnext =>
      obtain ⟨⟨new, honward⟩, hend⟩ := halt_onward hlife hstart.rest (hstart.now.trans_le hle)
        (fun due hdue => by cases hnext.symm.trans hdue) hgoes
      exact ⟨_, new, rfl, honward, hend⟩
  | case2 now b t hnext hbetween ih =>
      have hhalt : (b.setClock t).runDue.Goes := hgoes.before (glide_phase target t _)
      obtain ⟨⟨new, honward⟩, hthere⟩ := halt_onward hlife hstart.rest
        (hstart.now.trans_le (Nat.le_of_lt hbetween.1))
        (fun due hdue => Nat.le_of_eq (Option.some.inj (hnext.symm.trans hdue))) hhalt
      obtain ⟨b', new', heq, honward', hend⟩ := ih (hlife.onward honward) hthere
        (Nat.le_of_lt hbetween.2) hgoes
      exact ⟨b', _, heq, honward.trans honward', hend⟩
  | case3 now b t hnext hbetween =>
      have hlater := nextDue_later hstart.rest hstart.punctual hnext
      have hnow := hstart.now
      obtain ⟨⟨new, honward⟩, hend⟩ := halt_onward hlife hstart.rest (hstart.now.trans_le hle)
        (fun due hdue => by
          obtain rfl := Option.some.inj (hnext.symm.trans hdue)
          omega) hgoes
      exact ⟨_, new, rfl, honward, hend⟩

/-- **Sleeping is living.** To let time pass smoothly is a part of a life in which nobody
reads, and the loop is at rest at its end. -/
theorem sleep_onward (hlife : Life past b) (hpunctual : b.Punctual) {span : Nat}
    (hgoes : (b.sleep span).Goes) :
    ∃ new, b.Onward new (b.sleep span) ∧ (b.sleep span).RestsAt (b.now + span) := by
  have hsettle : b.settle.Goes := hgoes.before (glide_phase (b.now + span) b.now _)
  obtain ⟨⟨new, honward⟩, hnow, hdues⟩ := settle_rings hsettle
  have hpunctual' : b.settle.Punctual := fun alarm halarm hdue =>
    hpunctual alarm halarm (hdues alarm halarm hdue).1
  obtain ⟨b', new', heq, honward', hend⟩ := glide_onward (hlife.onward honward)
    ⟨settle_atRest hlife.orderly, hpunctual', hnow⟩ (Nat.le_add_right _ _) hgoes
  have hsleep : b.sleep span = b' := heq
  rw [hsleep]
  exact ⟨_, honward.trans honward', hend⟩

end Broker

end EventRelay
