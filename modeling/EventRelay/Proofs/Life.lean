import EventRelay.Proofs.Loop

/-!
# The life of a broker

`Broker.Move` lists what can happen to a broker whose loop does not fail: requests, what
clients do, turns of the loop, the two timers, the end, and the passing of time. Time
passes smoothly: the clock moves when nothing is left to do, and not past a moment at
which something happens by itself. `Broker.Life` is what can be reached by moves in any
order, with the acts of the hub on the way.

`Life.trail` says that the acts are a trail, for a broker brings every connection a name
of its own. The other invariants are about the broker itself: its alarms, its end, and
that no client is left waiting past its deadline (`Life.timely`).
-/

namespace EventRelay

namespace Broker

variable {b b' b'' : Broker} {a : Act} {o : Option Act} {past new new' : List Moment}

/-! ## What can happen -/

/-- What can happen to a broker, with the act of the hub if it is one. -/
inductive Move (b : Broker) : Option Act → Broker → Prop
  | asked (a : Arrival) (draws : List Draw) : Move b none (b.register a draws).1
  | abandoned (ticket : Ticket) : Move b none (b.abandon ticket)
  | releasing (r : Release) : Move b none (b.requestRelease r)
  | sent (m : Message) : Move b none (b.send m)
  | numbered : Move b none b.freshSerial.1
  /-- Something is reported, or reports are taken away. -/
  | reported {h : Hub} (hu : b.hub.Untouched h) (htimer : h.registry.sweeper = b.registry.sweeper) :
      Move b none { b with hub := h }
  | looked (id : SessionId) : Move b (some (.look id)) (b.withRegistry (b.registry.lookup id).1)
  | read (c : Client) : Move b (some (.read c)) (b.read c).1
  | left (c : Client) : Move b (some (.leave c)) (b.leave c)
  | turned {a : Act} (hbusy : b.isIdle = false) (hturn : b.Turn a b.turn) : Move b (some a) b.turn
  | letIn : Move b none b.letIn
  | set (alarm : Alarm) : Move b none (b.setAlarm alarm)
  | beat : Move b none b.runHeartbeat
  | swept {ticker : Ticker} (hticker : b.registry.sweeper = some ticker)
      (hdue : ticker.isDue b.registry.now = true) : Move b (some .sweep) b.runSweeper
  | stopped (hruns : b.isRunning = true) (hfirst : b.awaited = false)
      (hclock : b.hub.deadlineOverflows = false) : Move b (some .stop) b.stop
  /-- Somebody waits for a loop that has ended by itself. -/
  | joined (hended : b.isRunning = false) (hfirst : b.awaited = false) : Move b none b.joinTasks
  | waited {t : Nat} (hrest : b.AtRest) (hnow : b.now ≤ t)
      (hsmooth : ∀ due, b.nextDue = some due → t ≤ due) :
      Move b (some (.wait (t - b.now))) (b.setClock t)

theorem Asked.untouched {arrival : Arrival} {result : Broker × Except Refusal Ticket}
    (hasked : b.Asked arrival result) : b.hub.Untouched result.1.hub := by
  cases hasked with
  | refused hu => exact hu
  | queued hu => rwa [enqueue_hub]

theorem requestRelease_eq (b : Broker) (r : Release) : ∃ h releases, b.hub.Untouched h ∧
    h.registry = b.registry ∧ b.requestRelease r = { b with hub := h, releases } := by
  unfold requestRelease
  split
  · exact ⟨b.hub, _, .refl _, rfl, rfl⟩
  · exact ⟨_, b.releases, Hub.untouched_note b.hub fun _ _ => Notice.noConfusion, rfl, rfl⟩

theorem send_eq (b : Broker) (m : Message) : ∃ h intake, b.hub.Untouched h ∧
    h.registry = b.registry ∧ b.send m = { b with hub := h, intake } := by
  unfold send
  split
  · exact ⟨_, b.intake, Hub.untouched_note b.hub fun _ _ => Notice.noConfusion, rfl, rfl⟩
  · split
    · exact ⟨_, b.intake, Hub.untouched_note b.hub fun _ _ => Notice.noConfusion, rfl, rfl⟩
    · exact ⟨b.hub, _, .refl _, rfl, rfl⟩

theorem runHeartbeat_eq (b : Broker) : ∃ h intake, b.hub.Untouched h ∧ h.registry = b.registry ∧
    b.runHeartbeat = { b with
      hub := h, intake, heartbeat := b.heartbeat.fire b.now, serial := b.serial + 1 } := by
  unfold runHeartbeat
  dsimp only
  split
  · exact ⟨_, b.intake, Hub.untouched_note b.hub fun _ _ => Notice.noConfusion, rfl, rfl⟩
  · exact ⟨b.hub, _, .refl _, rfl, rfl⟩

theorem read_eq (b : Broker) (c : Client) : ∃ h, (h = b.hub ∨ h = (b.hub.read c).1) ∧
    (b.read c).1 = { b with hub := h } := by
  unfold Broker.read
  split
  · exact ⟨b.hub, Or.inl rfl, rfl⟩
  · exact ⟨_, Or.inr rfl, rfl⟩

/-- To wait for the tasks is to report what has become of them. -/
theorem joinTasks_eq (b : Broker) : ∃ h, b.hub.Untouched h ∧ h.registry = b.registry ∧
    b.joinTasks = { b with hub := h, awaited := true } := by
  have hnoted : ∀ (h : Hub) n, (∀ id c, n ≠ .clientReplaced id c) → h.Untouched (h.note n) :=
    fun h n hn => Hub.untouched_note h hn
  have hfailed : ∀ h : Hub, h.Untouched (h.note .brokerTaskFailed) :=
    fun h => hnoted h _ fun _ _ => Notice.noConfusion
  have hstopped : ∀ h : Hub, h.Untouched (h.note .brokerStopped) :=
    fun h => hnoted h _ fun _ _ => Notice.noConfusion
  unfold joinTasks
  dsimp only
  split
  · split
    · exact ⟨_, (hfailed _).trans (hstopped _), rfl, rfl⟩
    · exact ⟨_, hstopped _, rfl, rfl⟩
  · split
    · exact ⟨_, ((hfailed _).trans (hfailed _)).trans (hstopped _), rfl, rfl⟩
    · exact ⟨_, (hfailed _).trans (hstopped _), rfl, rfl⟩

theorem Move.quiet (hmove : b.Move none b') : b.hub.Untouched b'.hub := by
  cases hmove with
  | asked arrival draws => exact (b.register_cases arrival draws).untouched
  | releasing r =>
      obtain ⟨h, releases, hu, -, heq⟩ := b.requestRelease_eq r
      exact heq ▸ hu
  | sent m =>
      obtain ⟨h, intake, hu, -, heq⟩ := b.send_eq m
      exact heq ▸ hu
  | reported hu => exact hu
  | beat =>
      obtain ⟨h, intake, hu, -, heq⟩ := b.runHeartbeat_eq
      exact heq ▸ hu
  | joined =>
      obtain ⟨h, hu, -, heq⟩ := b.joinTasks_eq
      exact heq ▸ hu
  | abandoned => exact .refl _
  | numbered => exact .refl _
  | letIn => exact .refl _
  | set => exact .refl _

theorem runSweeper_eq {ticker : Ticker} (hticker : b.registry.sweeper = some ticker)
    (hdue : ticker.isDue b.registry.now = true) : b.runSweeper = b.withRegistry
      { b.registry.sweep.1 with sweeper := some (ticker.fire b.registry.now) } := by
  unfold runSweeper Registry.runSweeper
  rw [hticker]
  dsimp only
  rw [if_pos hdue]

theorem stop_eq (hruns : b.isRunning = true) (hfirst : b.awaited = false)
    (hclock : b.hub.deadlineOverflows = false) :
    ∃ h, b.hub.closeAll.Untouched h ∧ h.registry = b.hub.closeAll.registry ∧
      b.stop = { b.discardQueues with phase := .stopped, hub := h, awaited := true } := by
  have hshut : b.shutLoop = { b.discardQueues with phase := .stopped, hub := b.hub.closeAll } := by
    rw [shutLoop, hclock, if_neg Bool.false_ne_true]
  have hstop : b.stop = b.shutLoop.joinTasks := by
    rw [stop, hfirst, hruns, if_neg Bool.false_ne_true, if_pos rfl]
  rw [hstop, hshut]
  exact joinTasks_eq { b.discardQueues with phase := .stopped, hub := b.hub.closeAll }

theorem Move.act (hmove : b.Move (some a) b') (hgoes : ∀ f, b.phase ≠ .failed f) :
    (b.hub.act a).1.Untouched b'.hub ∧ (b.hub.act a).2.isFault = false := by
  cases hmove with
  | looked => exact ⟨.refl _, rfl⟩
  | read c =>
      unfold Broker.read
      split
      · next f hfailed => exact absurd hfailed (hgoes f)
      · exact ⟨.refl _, rfl⟩
  | left => exact ⟨.refl _, rfl⟩
  | turned hbusy hturn => exact ⟨hturn.hub ▸ .refl _, hturn.isFault⟩
  | swept hticker hdue =>
      rw [runSweeper_eq hticker hdue]
      exact ⟨⟨rfl, rfl, rfl, rfl, rfl, fun _ _ hmem => hmem⟩, rfl⟩
  | stopped hruns hfirst hclock =>
      obtain ⟨h, hu, -, heq⟩ := stop_eq hruns hfirst hclock
      rw [heq]
      exact ⟨hu, rfl⟩
  | waited hrest hnow hsmooth =>
      refine ⟨?_, rfl⟩
      rw [Hub.act, show b.hub.now + (_ - b.now) = _ from Nat.add_sub_cancel' hnow]
      exact .refl _

/-! ## Names -/

/-- The names that waiting registrations bring for their connections. -/
def callers (b : Broker) : List ClientId := (b.registrations ++ b.lobby).map (·.2.client)

theorem enqueue_callers (b : Broker) (n : Ticket) (g : Registration) :
    (b.enqueue n g).callers.Perm (g.client :: b.callers) := by
  unfold callers enqueue
  split
  · simp only [List.map_append, List.map_cons, List.append_assoc, List.singleton_append]
    exact List.perm_middle
  · simp only [List.map_append, List.map_cons, List.map_nil, ← List.append_assoc]
    exact List.perm_append_singleton _ _

theorem abandon_callers (b : Broker) (ticket : Ticket) :
    (b.abandon ticket).callers.Sublist b.callers := by
  have hnames : (b.abandon ticket).registrations.map (·.2.client)
      = b.registrations.map (·.2.client) := by
    unfold abandon
    rw [List.map_map]
    refine List.map_congr_left ?_
    rintro ⟨n, g⟩ -
    dsimp only [Function.comp_apply]
    split <;> rfl
  unfold callers
  rw [List.map_append, List.map_append, hnames]
  exact (List.Sublist.refl _).append (List.filter_sublist.map _)

theorem letIn_callers (b : Broker) : b.letIn.callers = b.callers := by
  unfold callers letIn
  rw [List.append_assoc, List.take_append_drop]

theorem Turn.callers_sublist (hturn : b.Turn a b') : b'.callers.Sublist b.callers := by
  cases hturn with
  | answered hfree hwaits =>
      unfold callers
      rw [hwaits]
      exact List.sublist_cons_self _ _
  | released => exact .refl _
  | dispatched => exact .refl _
  | reaped => exact .refl _

theorem Turn.callers_register {g : Registration} (hturn : b.Turn (.register g) b') :
    b.callers = g.client :: b'.callers := by
  cases hturn with
  | answered hfree hwaits =>
      unfold callers
      rw [hwaits]
      rfl

theorem Turn.serial (hturn : b.Turn a b') : b'.serial = b.serial := by
  cases hturn <;> rfl

/-- Only a new name joins those that wait. -/
theorem Move.callers (hmove : b.Move o b') :
    b'.callers.Sublist b.callers ∧ b.serial ≤ b'.serial ∨
      b'.callers.Perm (⟨b.serial⟩ :: b.callers) ∧ b'.serial = b.serial + 1 := by
  have hsame : b'.callers = b.callers → b'.serial = b.serial →
      b'.callers.Sublist b.callers ∧ b.serial ≤ b'.serial ∨
        b'.callers.Perm (⟨b.serial⟩ :: b.callers) ∧ b'.serial = b.serial + 1 :=
    fun hcallers hserial => Or.inl ⟨hcallers ▸ .refl _, Nat.le_of_eq hserial.symm⟩
  cases hmove with
  | asked arrival draws =>
      have hasked := b.register_cases arrival draws
      generalize b.register arrival draws = result at hasked hsame ⊢
      cases hasked with
      | refused => exact hsame rfl rfl
      | @queued h g hu hregistry hruns hcandidate hmetadata hclient =>
          refine Or.inr ⟨hclient ▸ enqueue_callers _ _ _, ?_⟩
          unfold enqueue
          split <;> rfl
  | abandoned ticket => exact Or.inl ⟨b.abandon_callers ticket, Nat.le_refl _⟩
  | releasing r =>
      obtain ⟨h, releases, -, -, heq⟩ := b.requestRelease_eq r
      exact hsame (heq ▸ rfl) (heq ▸ rfl)
  | sent m =>
      obtain ⟨h, intake, -, -, heq⟩ := b.send_eq m
      exact hsame (heq ▸ rfl) (heq ▸ rfl)
  | numbered => exact Or.inl ⟨.refl _, Nat.le_succ _⟩
  | read c =>
      obtain ⟨h, -, heq⟩ := b.read_eq c
      exact hsame (heq ▸ rfl) (heq ▸ rfl)
  | turned hbusy hturn => exact Or.inl ⟨hturn.callers_sublist, Nat.le_of_eq hturn.serial.symm⟩
  | letIn => exact hsame b.letIn_callers rfl
  | beat =>
      obtain ⟨h, intake, -, -, heq⟩ := b.runHeartbeat_eq
      rw [heq]
      exact Or.inl ⟨.refl _, Nat.le_succ _⟩
  | stopped hruns hfirst hclock =>
      obtain ⟨h, -, -, heq⟩ := stop_eq hruns hfirst hclock
      rw [heq]
      exact Or.inl ⟨List.nil_sublist _, Nat.le_refl _⟩
  | joined =>
      obtain ⟨h, -, -, heq⟩ := b.joinTasks_eq
      exact hsame (heq ▸ rfl) (heq ▸ rfl)
  | reported => exact hsame rfl rfl
  | looked => exact hsame rfl rfl
  | left => exact hsame rfl rfl
  | set => exact hsame rfl rfl
  | swept => exact hsame rfl rfl
  | waited => exact hsame rfl rfl

theorem Move.register {g : Registration} (hmove : b.Move (some (.register g)) b') :
    b.callers = g.client :: b'.callers := by
  cases hmove with
  | turned hbusy hturn => exact hturn.callers_register

/-- Nobody has the name of another, and every name has been used up. -/
structure Fresh (past : List Moment) (b : Broker) : Prop where
  nodup : (b.callers ++ (handles (past.map Moment.occurrence)).map (·.id)).Nodup
  old : ∀ k ∈ b.callers ++ (handles (past.map Moment.occurrence)).map (·.id), k.serial < b.serial

theorem Fresh.move (hfresh : Fresh past b) (hmove : b.Move o b') : Fresh past b' := by
  obtain ⟨hnodup, hold⟩ := hfresh
  rcases hmove.callers with ⟨hsub, hserial⟩ | ⟨hperm, hserial⟩
  · have hsub' := hsub.append (.refl ((handles (past.map Moment.occurrence)).map (·.id)))
    exact ⟨hnodup.sublist hsub', fun k hk => Nat.lt_of_lt_of_le (hold k (hsub'.subset hk)) hserial⟩
  · have hperm' := hperm.append_right ((handles (past.map Moment.occurrence)).map (·.id))
    constructor
    · refine hperm'.nodup_iff.mpr (List.nodup_cons.mpr ⟨?_, hnodup⟩)
      intro hmem
      exact Nat.lt_irrefl _ (hold _ hmem)
    · intro k hk
      rcases List.mem_cons.mp (hperm'.subset hk) with rfl | hk
      · exact hserial ▸ Nat.lt_succ_self _
      · exact hserial ▸ Nat.lt_succ_of_lt (hold k hk)

/-- An act of a broker that has not failed goes on with its trail, and gives out a name at
most that waits for it. -/
theorem Fresh.act (hfresh : Fresh past b) (htrail : Trail past b.hub) (hmove : b.Move (some a) b')
    (hgoes : ∀ f, b.phase ≠ .failed f) :
    Trail (⟨a, b.hub⟩ :: past) b'.hub ∧ Fresh (⟨a, b.hub⟩ :: past) b' := by
  obtain ⟨hu, hfault⟩ := hmove.act hgoes
  have hnew : a.newcomer (past.map Moment.occurrence) := by
    cases a with
    | register g =>
        intro c hc heq
        have hnodup := hfresh.nodup
        rw [hmove.register, List.cons_append, List.nodup_cons] at hnodup
        exact hnodup.1 (List.mem_append_right _ (heq ▸ List.mem_map_of_mem hc))
    | _ => trivial
  have htrail' := htrail.step a hnew hfault
  refine ⟨htrail'.aside hu, ?_⟩
  cases hhandle : (Moment.mk a b.hub).occurrence.handle? with
  | none =>
      have hsame : handles ((⟨a, b.hub⟩ :: past : List Moment).map Moment.occurrence)
          = handles (past.map Moment.occurrence) := by
        rw [List.map_cons, handles, List.filterMap_cons, hhandle]
        rfl
      obtain ⟨hnodup, hold⟩ := hfresh.move hmove
      exact ⟨hsame ▸ hnodup, hsame ▸ hold⟩
  | some c =>
      have hout := Moment.handle?_eq_some.mp hhandle
      obtain ⟨g, rfl⟩ : ∃ g, a = .register g := Moment.registration hout
      obtain ⟨-, -, hname, -⟩ := htrail'.admitted rfl hout
      have hmore : handles ((⟨.register g, b.hub⟩ :: past : List Moment).map Moment.occurrence)
          = c :: handles (past.map Moment.occurrence) := by
        rw [List.map_cons, handles, List.filterMap_cons, hhandle]
        rfl
      have hperm : (b'.callers ++ (c :: handles (past.map Moment.occurrence)).map (·.id)).Perm
          (b.callers ++ (handles (past.map Moment.occurrence)).map (·.id)) := by
        rw [hmove.register, List.map_cons, hname]
        exact List.perm_middle
      have hserial : b.serial ≤ b'.serial := by
        rcases hmove.callers with ⟨-, hserial⟩ | ⟨-, hserial⟩ <;> omega
      constructor
      · rw [hmore]
        exact hperm.nodup_iff.mpr hfresh.nodup
      · intro k hk
        rw [hmore] at hk
        exact Nat.lt_of_lt_of_le (hfresh.old k (hperm.subset hk)) hserial

/-! ## Lives -/

/-- What can be reached from a new broker over an empty registry, with the acts of the hub
on the way. -/
inductive Life : List Moment → Broker → Prop
  | start {config : Config} {registry : Registry} {b : Broker} (hempty : registry.sessions = [])
      (htimer : ∀ ticker, registry.sweeper = some ticker → Ticker.minPeriod ≤ ticker.period)
      (hstart : Broker.start config registry = .ok b) : Life [] b
  | quiet {past : List Moment} {b b' : Broker} (hlife : Life past b) (hmove : b.Move none b') :
      Life past b'
  | act {past : List Moment} {b b' : Broker} {a : Act} (hlife : Life past b)
      (hmove : b.Move (some a) b') : Life (⟨a, b.hub⟩ :: past) b'

theorem start_eq {config : Config} {registry : Registry}
    (hstart : Broker.start config registry = .ok b) :
    b = { hub := b.hub, heartbeat := Ticker.start config.heartbeat registry.now } := by
  rw [Broker.start] at hstart
  split at hstart
  · cases hstart
  · obtain rfl := Except.ok.inj hstart
    rfl

/-! ## Timers, alarms and the end -/

/-- The broker was stopped and has nobody left. -/
def Ended (b : Broker) : Prop := b.phase = .stopped ∧ b.lobby = [] ∧ b.hub.clients = []

/-- What no move changes, or in one way only. -/
structure Frame (b b' : Broker) : Prop where
  phase : b'.phase = b.phase ∨ b'.Ended
  lobby : b.isRunning = false → b.lobby = [] → b'.lobby = []
  alarms : ∀ alarm ∈ b.alarms, alarm ∈ b'.alarms
  heartbeat : b'.heartbeat = b.heartbeat ∨ b'.heartbeat = b.heartbeat.fire b.now
  sweeper : b'.registry.sweeper = b.registry.sweeper ∨ ∃ ticker, b.registry.sweeper = some ticker ∧
    b'.registry.sweeper = some (ticker.fire b.now)

theorem mem_setAlarm {alarm : Alarm} (halarm : alarm ∈ b.alarms) (alarm' : Alarm) :
    alarm ∈ (b.setAlarm alarm').alarms := by
  by_cases heq : alarm = alarm'
  · subst heq
    exact List.mem_append_right _ (List.mem_singleton_self _)
  · exact List.mem_append_left _ ((List.mem_erase_of_ne heq).mpr halarm)

theorem Turn.frame (hturn : b.Turn a b') : b.Frame b' := by
  refine ⟨Or.inl hturn.phase, fun _ hlobby => hturn.lobby.trans hlobby, ?_, Or.inl hturn.heartbeat,
    Or.inl ?_⟩
  · intro alarm halarm
    cases hturn <;> exact mem_setAlarm halarm _
  · rw [registry, hturn.hub]
    exact (b.hub.sameTime_act hturn.ne.1).2

theorem Move.frame (hmove : b.Move o b') : b.Frame b' := by
  have hsame : b'.phase = b.phase → b'.lobby = b.lobby → b'.alarms = b.alarms →
      b'.heartbeat = b.heartbeat → b'.registry.sweeper = b.registry.sweeper → b.Frame b' :=
    fun hphase hlobby halarms hheartbeat hsweeper => ⟨Or.inl hphase, fun _ => hlobby.trans,
      fun _ halarm => halarms ▸ halarm, Or.inl hheartbeat, Or.inl hsweeper⟩
  cases hmove with
  | asked arrival draws =>
      have hasked := b.register_cases arrival draws
      generalize b.register arrival draws = result at hasked hsame ⊢
      cases hasked with
      | refused hu hregistry => exact hsame rfl rfl rfl rfl (congrArg Registry.sweeper hregistry)
      | queued hu hregistry hruns =>
          have hsweeper := congrArg Registry.sweeper hregistry
          unfold enqueue
          split
          · exact ⟨Or.inl rfl, fun _ => id, fun _ => id, Or.inl rfl, Or.inl hsweeper⟩
          · refine ⟨Or.inl rfl, fun hphase => ?_, fun _ => id, Or.inl rfl, Or.inl hsweeper⟩
            cases hruns.symm.trans hphase
  | abandoned =>
      refine ⟨Or.inl rfl, fun _ hlobby => ?_, fun _ => id, Or.inl rfl, Or.inl rfl⟩
      unfold abandon
      rw [hlobby]
      rfl
  | releasing r =>
      obtain ⟨h, releases, -, hregistry, heq⟩ := b.requestRelease_eq r
      rw [heq]
      exact ⟨Or.inl rfl, fun _ => id, fun _ => id, Or.inl rfl, Or.inl (congrArg _ hregistry)⟩
  | sent m =>
      obtain ⟨h, intake, -, hregistry, heq⟩ := b.send_eq m
      rw [heq]
      exact ⟨Or.inl rfl, fun _ => id, fun _ => id, Or.inl rfl, Or.inl (congrArg _ hregistry)⟩
  | numbered => exact hsame rfl rfl rfl rfl rfl
  | reported hu htimer => exact hsame rfl rfl rfl rfl htimer
  | looked id => exact hsame rfl rfl rfl rfl (b.registry.sameTime_lookup id).2
  | read c =>
      obtain ⟨h, rfl | rfl, heq⟩ := b.read_eq c
      · rw [heq]
        exact ⟨Or.inl rfl, fun _ => id, fun _ => id, Or.inl rfl, Or.inl rfl⟩
      · have hread := (b.hub.sameTime_act (a := .read c) nofun).2
        rw [heq]
        exact ⟨Or.inl rfl, fun _ => id, fun _ => id, Or.inl rfl, Or.inl hread⟩
  | left c => exact hsame rfl rfl rfl rfl (b.hub.sameTime_act (a := .leave c) nofun).2
  | turned hbusy hturn => exact hturn.frame
  | letIn =>
      refine ⟨Or.inl rfl, fun _ hlobby => ?_, fun _ => id, Or.inl rfl, Or.inl rfl⟩
      rw [letIn_of_empty hlobby, hlobby]
  | set alarm => exact ⟨Or.inl rfl, fun _ => id, fun _ halarm => mem_setAlarm halarm _, Or.inl rfl,
      Or.inl rfl⟩
  | beat =>
      obtain ⟨h, intake, -, hregistry, heq⟩ := b.runHeartbeat_eq
      rw [heq]
      exact ⟨Or.inl rfl, fun _ => id, fun _ => id, Or.inr rfl, Or.inl (congrArg _ hregistry)⟩
  | swept hticker hdue =>
      rw [runSweeper_eq hticker hdue]
      exact ⟨Or.inl rfl, fun _ => id, fun _ => id, Or.inl rfl, Or.inr ⟨_, hticker, rfl⟩⟩
  | joined =>
      obtain ⟨h, -, hregistry, heq⟩ := b.joinTasks_eq
      rw [heq]
      exact ⟨Or.inl rfl, fun _ => id, fun _ => id, Or.inl rfl, Or.inl (congrArg _ hregistry)⟩
  | stopped hruns hfirst hclock =>
      obtain ⟨h, hu, hregistry, heq⟩ := stop_eq hruns hfirst hclock
      rw [heq]
      exact ⟨Or.inr ⟨rfl, rfl, hu.clients⟩, fun _ _ => rfl, fun _ => id, Or.inl rfl,
        Or.inl ((congrArg Registry.sweeper hregistry).trans
          (b.hub.sameTime_act (a := .stop) nofun).2)⟩
  | waited => exact hsame rfl rfl rfl rfl rfl

/-- Nobody comes back after the end. -/
theorem Move.ended (hmove : b.Move o b') (hended : b.Ended) : b'.Ended := by
  obtain ⟨hphase, hlobby, hclients⟩ := hended
  have hstopped : b.isRunning = false := by rw [isRunning, hphase]; rfl
  rcases hmove.frame.phase with hphase' | hended'
  · refine ⟨hphase'.trans hphase, hmove.frame.lobby hstopped hlobby, ?_⟩
    have hslot : ∀ c, b.hub.slot? c = none := fun c => by rw [Hub.slot?, hclients]; rfl
    cases o with
    | none => exact hmove.quiet.clients.trans hclients
    | some a =>
        cases hmove with
        | looked => exact hclients
        | read c =>
            rw [Broker.read, hphase]
            show (b.hub.read c).1.clients = []
            rw [Hub.read, hslot]
            exact hclients
        | left c =>
            show (b.hub.leave c).clients = []
            rw [Hub.leave, hslot]
            exact hclients
        | turned hbusy => cases hbusy.symm.trans (isIdle_of_not_running hstopped)
        | swept hticker hdue =>
            rw [runSweeper_eq hticker hdue]
            exact hclients
        | stopped hruns => cases hruns.symm.trans hstopped
        | waited => exact hclients
  · exact hended'

namespace Life

theorem ended (hlife : Life past b) : b.phase = .running ∨ b.Ended := by
  have hmoved : ∀ {b b' : Broker} {o : Option Act}, b.Move o b' → b.phase = .running ∨ b.Ended →
      b'.phase = .running ∨ b'.Ended := by
    rintro b b' o hmove (hruns | hended)
    · exact hmove.frame.phase.imp (·.trans hruns) id
    · exact Or.inr (hmove.ended hended)
  induction hlife with
  | start hempty htimer hstart => rw [start_eq hstart]; exact Or.inl rfl
  | quiet hlife hmove ih => exact hmoved hmove ih
  | act hlife hmove ih => exact hmoved hmove ih

theorem not_failed (hlife : Life past b) (f : Fault) : b.phase ≠ .failed f := by
  rintro hfailed
  rcases hlife.ended with hruns | ⟨hstopped, -⟩
  · cases hfailed.symm.trans hruns
  · cases hfailed.symm.trans hstopped

theorem orderly (hlife : Life past b) : b.Orderly := by
  intro hphase
  rcases hlife.ended with hruns | ⟨-, hlobby, -⟩
  · rw [isRunning, hruns] at hphase
    cases hphase
  · exact hlobby

theorem mem_alarms (hlife : Life past b) (alarm : Alarm) : alarm ∈ b.alarms := by
  induction hlife with
  | start hempty htimer hstart =>
      rw [start_eq hstart]
      show alarm ∈ [Alarm.sweep, .heartbeat, .stall]
      cases alarm <;> decide
  | quiet hlife hmove ih => exact hmove.frame.alarms _ ih
  | act hlife hmove ih => exact hmove.frame.alarms _ ih

/-- The timers keep their periods. -/
theorem periods (hlife : Life past b) : Ticker.minPeriod ≤ b.heartbeat.period ∧
    ∀ ticker, b.registry.sweeper = some ticker → Ticker.minPeriod ≤ ticker.period := by
  have hfire : ∀ (ticker : Ticker) now, (ticker.fire now).period = ticker.period := by
    intro ticker now
    unfold Ticker.fire
    split <;> rfl
  have hmoved : ∀ {b b' : Broker}, b.Frame b' → (Ticker.minPeriod ≤ b.heartbeat.period ∧
      ∀ ticker, b.registry.sweeper = some ticker → Ticker.minPeriod ≤ ticker.period) →
      Ticker.minPeriod ≤ b'.heartbeat.period ∧
      ∀ ticker, b'.registry.sweeper = some ticker → Ticker.minPeriod ≤ ticker.period := by
    rintro b b' hframe ⟨hbeat, hsweep⟩
    constructor
    · rcases hframe.heartbeat with heq | heq
      · exact heq ▸ hbeat
      · rwa [heq, hfire]
    · intro ticker hticker
      rcases hframe.sweeper with heq | ⟨ticker', hticker', heq⟩
      · exact hsweep ticker (heq ▸ hticker)
      · obtain rfl := Option.some.inj (heq.symm.trans hticker)
        rw [hfire]
        exact hsweep ticker' hticker'
  induction hlife with
  | @start config registry b hempty htimer hstart =>
      have hregistry := (Broker.start_hub hstart).1
      rw [start_eq hstart]
      exact ⟨Nat.le_max_right _ _, fun ticker hticker => htimer ticker (hregistry ▸ hticker)⟩
  | quiet hlife hmove ih => exact hmoved hmove.frame ih
  | act hlife hmove ih => exact hmoved hmove.frame ih

/-! ## The acts of a life -/

theorem trail_fresh (hlife : Life past b) : Trail past b.hub ∧ Fresh past b := by
  induction hlife with
  | start hempty htimer hstart =>
      refine ⟨.start hempty hstart, ?_⟩
      rw [start_eq hstart]
      exact ⟨List.nodup_nil, nofun⟩
  | quiet hlife hmove ih => exact ⟨ih.1.aside hmove.quiet, ih.2.move hmove⟩
  | act hlife hmove ih => exact ih.2.act ih.1 hmove hlife.not_failed

/-- The acts of a life are a trail. -/
theorem trail (hlife : Life past b) : Trail past b.hub := hlife.trail_fresh.1

/-! ## Deadlines -/

/-- The alarm for stalled clients goes off no later than anyone's deadline. -/
theorem nextDue_le (hlife : Life past b) (hrest : b.AtRest) {id : SessionId} {slot : Slot}
    (hslot : Table.get? b.hub.clients id = some slot) {since : Nat}
    (hsince : slot.stalledSince = some since) :
    ∃ due, b.nextDue = some due ∧ due ≤ since + b.config.patience := by
  have hentry := Table.mem_of_get? hslot
  have hruns : b.phase = .running := by
    rcases hlife.ended with hruns | ⟨-, -, hclients⟩
    · exact hruns
    · rw [hclients] at hentry
      cases hentry
  have hidle := hrest.1
  simp only [isIdle, isRunning, hruns, beq_self_eq_true, Bool.not_true, Bool.false_or,
    Bool.and_eq_true, beq_iff_eq] at hidle
  have hdeadline : slot.deadline b.config.patience = some (since + b.config.patience) := by
    rw [Slot.deadline, hsince]
    rfl
  obtain ⟨d, hd, hle⟩ := Hub.nextDeadline_le hentry hdeadline
  have hstall : b.alarmAt .stall = some d := by
    simp only [alarmAt, isRunning, hruns, beq_self_eq_true, hidle.1.1, Bool.and_self, if_true, hd]
  obtain ⟨due, hdue⟩ : ∃ due, b.nextDue = some due := by
    refine Option.ne_none_iff_exists'.mp ?_
    rw [nextDue, Ne, List.min?_eq_none_iff, List.filterMap_eq_nil_iff]
    intro hnone
    cases (hnone .stall (hlife.mem_alarms _)).symm.trans hstall
  refine ⟨due, hdue, ?_⟩
  rw [nextDue, List.min?_eq_some_iff] at hdue
  exact (hdue.2 d (List.mem_filterMap.mpr ⟨.stall, hlife.mem_alarms _, hstall⟩)).trans hle

/-- **Nobody waits past a deadline.** While time passes smoothly, no client's stall clock
has run for longer than it may. -/
theorem timely (hlife : Life past b) {id : SessionId} {slot : Slot}
    (hslot : Table.get? b.hub.clients id = some slot) {since : Nat}
    (hsince : slot.stalledSince = some since) : b.now ≤ since + b.config.patience := by
  induction hlife generalizing slot with
  | start hempty htimer hstart =>
      rw [(Broker.start_hub hstart).2] at hslot
      cases hslot
  | @quiet past b b' hlife hmove ih =>
      have hu := hmove.quiet
      have hle := ih (hu.clients ▸ hslot) hsince
      have hnow : b'.now = b.now := congrArg Terms.now hu.terms
      have hconfig : b'.config = b.config := congrArg Terms.config hu.terms
      rwa [hnow, hconfig]
  | @act past b b' a hlife hmove ih =>
      have htrail := hlife.trail
      obtain ⟨hu, hfault⟩ := hmove.act hlife.not_failed
      rw [hu.clients] at hslot
      have hterms := hu.terms.trans (htrail.sound.terms_act a hfault)
      have hnow : b'.now = a.clock b.now := congrArg Terms.now hterms
      have hconfig : b'.config = b.config := congrArg Terms.config hterms
      rw [hnow, hconfig]
      have hmark : since = b.now ∨ ∃ slot₀, Table.get? b.hub.clients id = some slot₀ ∧
          slot₀.stalledSince = some since := by
        rcases (htrail.sound.step a hfault id).slot htrail.sound hslot (fun _ => htrail.marked) with
          ⟨-, -, -, -, hmark⟩ | ⟨slot₀, hslot₀, hb⟩
        · exact Or.inl (hmark since hsince)
        · exact (hb.mark since hsince).imp_right fun hmark => ⟨slot₀, hslot₀, hmark⟩
      by_cases hwait : ∃ span, a = .wait span
      · obtain ⟨span, rfl⟩ := hwait
        -- the clock moves only up to what is due next, and every deadline is due
        cases hmove with
        | turned hbusy hturn => cases hturn
        | @waited t hrest hle hsmooth =>
            obtain ⟨due, hdue, hbefore⟩ := hlife.nextDue_le hrest hslot hsince
            have hlate := hsmooth due hdue
            show b.now + (t - b.now) ≤ since + b.config.patience
            omega
      · have hclock : a.clock b.now = b.now := by
          cases a with
          | wait span => exact absurd ⟨span, rfl⟩ hwait
          | _ => rfl
        rw [hclock]
        rcases hmark with rfl | ⟨slot₀, hslot₀, hsince₀⟩
        · exact Nat.le_add_right _ _
        · exact ih hslot₀ hsince₀

/-- When the loop has nothing to do, everybody has time left. -/
theorem ahead (hlife : Life past b) (hidle : b.isIdle = true) {id : SessionId} {slot : Slot}
    (hslot : Table.get? b.hub.clients id = some slot) {since : Nat}
    (hsince : slot.stalledSince = some since) : b.now < since + b.config.patience := by
  have hentry := Table.mem_of_get? hslot
  rcases hlife.ended with hruns | ⟨-, -, hclients⟩
  · simp only [isIdle, isRunning, hruns, beq_self_eq_true, Bool.not_true, Bool.false_or,
      Bool.and_eq_true, Bool.not_eq_true'] at hidle
    refine not_reapDue_iff.mp hidle.1.2 (id, slot) hentry _ ?_
    rw [Slot.deadline, hsince]
    rfl
  · rw [hclients] at hentry
    cases hentry

end Life

end Broker

end EventRelay
