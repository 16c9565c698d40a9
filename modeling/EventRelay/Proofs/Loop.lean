import EventRelay.Proofs.Stall
import EventRelay.Broker.Timing

/-!
# The loop comes to rest

`Broker.Turn` lists what one turn of the loop does, `Broker.Fails` how the loop ends in one, and
`turn_course` is where the turn is opened to show it. From the list follows that the loop comes
to an end of its work:
`rank` bounds the turns until the loop is idle, `distance` the spells until nobody waits
in the lobby either, and `settle_atRest` says that `settle` takes enough of them.
-/

namespace EventRelay

/-! ## Looking at the clients -/

namespace Hub

variable {h : Hub}

theorem forceDisconnect_clients (h : Hub) (id : SessionId) :
    (h.forceDisconnect id).clients = Table.erase h.clients id := by
  have hunregister : (h.forceDisconnect id).clients = (h.unregister id none).1.clients := by
    unfold forceDisconnect
    split
    · next h' heq => rw [heq]; rfl
    · next h' heq => rw [heq]
  rw [hunregister]
  cases hslot : Table.get? h.clients id with
  | some slot =>
      rw [unregister_some h hslot rfl]
      rfl
  | none =>
      rw [unregister_none h fun slot hslot' => by rw [hslot] at hslot'; cases hslot']
      refine (List.filter_eq_self.mpr ?_).symm
      intro entry hentry
      refine bne_iff_ne.mpr ?_
      rintro rfl
      exact Table.get?_eq_none_iff.mp hslot (List.mem_map_of_mem hentry)

theorem mem_foldl_forceDisconnect {ids : List SessionId} {entry : SessionId × Slot} {h : Hub}
    (hentry : entry ∈ (ids.foldl forceDisconnect h).clients) :
    entry ∈ h.clients ∧ entry.1 ∉ ids := by
  induction ids generalizing h with
  | nil => exact ⟨hentry, List.not_mem_nil⟩
  | cons id ids ih =>
      obtain ⟨hbefore, hne⟩ := ih hentry
      rw [forceDisconnect_clients, Table.erase, List.mem_filter] at hbefore
      refine ⟨hbefore.1, ?_⟩
      rintro (_ | ⟨_, hmem⟩)
      · exact bne_iff_ne.mp hbefore.2 rfl
      · exact hne hmem

/-- Whoever is left after a look at the clients has been looked at. -/
theorem mem_reap {entry : SessionId × Slot} (hentry : entry ∈ h.reap.clients) :
    ∃ slot : Slot, (slot.check h.config.patience h.now).2 = false ∧
      entry.2 = (slot.check h.config.patience h.now).1 := by
  rw [reap_eq] at hentry
  obtain ⟨hjudged, hspared⟩ := mem_foldl_forceDisconnect hentry
  obtain ⟨⟨id, slot⟩, hmem, rfl⟩ := List.mem_map.mp hjudged
  refine ⟨slot, ?_, rfl⟩
  by_contra hlate
  rw [Bool.not_eq_false] at hlate
  exact hspared (List.mem_filterMap.mpr ⟨(id, slot), hmem, if_pos hlate⟩)

theorem reap_terms (h : Hub) : h.reap.terms = h.terms := by
  rw [reap_eq]
  exact terms_foldl_forceDisconnect _ _

/-- The next deadline is one of the clients' deadlines, and none is earlier. -/
theorem nextDeadline_eq_some {t : Nat} : h.nextDeadline = some t ↔
    (∃ entry ∈ h.clients, entry.2.deadline h.config.patience = some t) ∧
      ∀ entry ∈ h.clients, ∀ t', entry.2.deadline h.config.patience = some t' → t ≤ t' := by
  simp only [nextDeadline, List.min?_eq_some_iff, List.mem_filterMap, forall_exists_index, and_imp]
  exact and_congr_right fun _ =>
    ⟨fun hmin entry hentry t' ht' => hmin t' entry hentry ht',
      fun hmin t' entry hentry ht' => hmin entry hentry t' ht'⟩

/-- The next deadline is no later than any that somebody has. -/
theorem nextDeadline_le {entry : SessionId × Slot} {deadline : Nat} (hentry : entry ∈ h.clients)
    (hdeadline : entry.2.deadline h.config.patience = some deadline) :
    ∃ t, h.nextDeadline = some t ∧ t ≤ deadline := by
  cases hnext : h.nextDeadline with
  | none =>
      rw [nextDeadline, List.min?_eq_none_iff, List.filterMap_eq_nil_iff] at hnext
      cases (hnext entry hentry).symm.trans hdeadline
  | some t => exact ⟨t, rfl, (nextDeadline_eq_some.mp hnext).2 entry hentry deadline hdeadline⟩

end Hub

namespace Broker

variable {b b' : Broker} {a : Act}

/-- Nobody's time is up. -/
theorem not_reapDue_iff : b.isReapDue = false ↔
    ∀ entry ∈ b.hub.clients, ∀ t, entry.2.deadline b.config.patience = some t → b.now < t := by
  unfold isReapDue
  cases hnext : b.hub.nextDeadline with
  | none =>
      refine ⟨fun _ entry hentry t ht => ?_, fun _ => rfl⟩
      rw [Hub.nextDeadline, List.min?_eq_none_iff, List.filterMap_eq_nil_iff] at hnext
      cases (hnext entry hentry).symm.trans ht
  | some t =>
      obtain ⟨⟨entry, hentry, ht⟩, hmin⟩ := Hub.nextDeadline_eq_some.mp hnext
      rw [Option.any_some, decide_eq_false_iff_not, Nat.not_le]
      exact ⟨fun hlt entry' hentry' t' ht' => Nat.lt_of_lt_of_le hlt (hmin entry' hentry' t' ht'),
        fun hall => hall entry hentry t ht⟩

theorem not_reapDue_reap (b : Broker) : { b with hub := b.hub.reap }.isReapDue = false := by
  have hterms := b.hub.reap_terms
  have hnow : b.hub.reap.now = b.hub.now := congrArg Terms.now hterms
  have hconfig : b.hub.reap.config = b.hub.config := congrArg Terms.config hterms
  refine not_reapDue_iff.mpr ?_
  intro entry hentry t ht
  obtain ⟨slot, hspared, hslot⟩ := Hub.mem_reap hentry
  rw [Slot.deadline, hslot] at ht
  obtain ⟨since, hsince, rfl⟩ := Option.map_eq_some_iff.mp ht
  show b.hub.reap.now < since + b.hub.reap.config.patience
  rw [hnow, hconfig]
  exact Slot.check_deadline hspared hsince

/-! ## One turn -/

/-- What a turn of the loop does, unless the loop ends in it. -/
inductive Turn (b : Broker) : Act → Broker → Prop
  | released {r : Release} {releases : List Release} (hwaits : b.releases = r :: releases) :
      Turn b (.release r.session r.client)
        ({ b with releases, hub := b.hub.release r.session r.client }.setAlarm .stall)
  | answered {ticket : Ticket} {g : Registration} {registrations : List (Ticket × Registration)}
      {answer : Except Refusal Client} (hfree : b.releases = [])
      (hwaits : b.registrations = (ticket, g) :: registrations)
      (hcount : b.hub.overcounted? g = none)
      (hfault : ∀ f, (b.hub.register g).2 ≠ .error (.fault f)) :
      Turn b (.register g)
        ({ b with
            registrations
            hub := (b.hub.register g).1
            answers := (ticket, answer) :: b.answers }.setAlarm .stall)
  | dispatched {m : Message} {intake : List Message} (hfree : b.releases = [])
      (hfree' : b.registrations = []) (hwaits : b.intake = m :: intake) :
      Turn b (.dispatch m) ({ b with intake, hub := b.hub.dispatch m }.setAlarm .stall)
  | reaped (hfree : b.workload = 0) (hclock : b.hub.deadlineOverflows = false) :
      Turn b .reap ({ b with hub := b.hub.reap }.setAlarm .stall)

theorem workload_eq_zero :
    b.workload = 0 ↔ b.releases = [] ∧ b.registrations = [] ∧ b.intake = [] := by
  simp only [workload, Nat.add_eq_zero_iff, List.length_eq_zero_iff, and_assoc]

/-- How the loop ends in a turn: before it takes up anything, or with a registration that goes
past a limit. Whoever waits is refused. -/
inductive Fails (b : Broker) : Fault → Broker → Prop
  | late (hclock : b.hub.deadlineOverflows = true) :
      Fails b .deadlineOverflow (b.fail .deadlineOverflow)
  | counting {ticket : Ticket} {g : Registration} {registrations : List (Ticket × Registration)}
      {id : SessionId} (hclock : b.hub.deadlineOverflows = false) (hfree : b.releases = [])
      (hwaits : b.registrations = (ticket, g) :: registrations)
      (hcount : b.hub.overcounted? g = some id) :
      Fails b .countOverflow
        (({ b with
              registrations
              hub := { b.hub with registry := b.registry.hold id }
            }.failAnswering ticket .countOverflow).setAlarm .stall)
  | admitting {ticket : Ticket} {g : Registration} {registrations : List (Ticket × Registration)}
      {f : Fault} (hclock : b.hub.deadlineOverflows = false) (hfree : b.releases = [])
      (hwaits : b.registrations = (ticket, g) :: registrations)
      (hcount : b.hub.overcounted? g = none)
      (hfault : (b.hub.register g).2 = .error (.fault f)) :
      Fails b f
        (({ b with
              registrations
              hub := (b.hub.register g).1
            }.failAnswering ticket f).setAlarm .stall)

/-- A turn is one of these. -/
theorem turn_course (b : Broker) : (∃ f, b.Fails f b.turn) ∨ ∃ a, b.Turn a b.turn := by
  unfold turn
  split
  · next hclock => exact Or.inl ⟨_, .late hclock⟩
  next hclock =>
  rw [Bool.not_eq_true] at hclock
  split
  · next hfree => exact Or.inr ⟨_, .reaped hfree hclock⟩
  next hwaits =>
  unfold work
  split
  · next r releases hreleases => exact Or.inr ⟨_, .released hreleases⟩
  next hreleases =>
  split
  · next ticket g registrations hregistrations =>
      unfold accept
      split
      · next id hcount => exact Or.inl ⟨_, .counting hclock hreleases hregistrations hcount⟩
      next hcount =>
      split
      · next h c hanswer =>
          have hfault : ∀ f, (b.hub.register g).2 ≠ .error (.fault f) := by simp [hanswer]
          obtain rfl : (b.hub.register g).1 = h := congrArg Prod.fst hanswer
          exact Or.inr ⟨_, .answered hreleases hregistrations hcount hfault⟩
      · next h r hanswer =>
          have hfault : ∀ f, (b.hub.register g).2 ≠ .error (.fault f) := by simp [hanswer]
          obtain rfl : (b.hub.register g).1 = h := congrArg Prod.fst hanswer
          exact Or.inr ⟨_, .answered hreleases hregistrations hcount hfault⟩
      · next h f hanswer =>
          obtain rfl : (b.hub.register g).1 = h := congrArg Prod.fst hanswer
          exact Or.inl ⟨_, .admitting hclock hreleases hregistrations hcount
            (congrArg Prod.snd hanswer)⟩
  next hregistrations =>
  split
  · next m intake hintake => exact Or.inr ⟨_, .dispatched hreleases hregistrations hintake⟩
  · next hintake =>
      exact absurd (workload_eq_zero.mpr ⟨hreleases, hregistrations, hintake⟩) hwaits

theorem Fails.phase {f : Fault} (hfails : b.Fails f b') : b'.phase = .failed f := by
  cases hfails <;> rfl

/-- A loop that fails discards what waits. -/
theorem Fails.discards {f : Fault} (hfails : b.Fails f b') : b'.workload = 0 ∧ b'.lobby = [] := by
  cases hfails <;> exact ⟨rfl, rfl⟩

theorem turn_cases (b : Broker) :
    ((∃ f, b.turn.phase = .failed f) ∧ b.turn.workload = 0 ∧ b.turn.lobby = []) ∨
      ∃ a, b.Turn a b.turn :=
  b.turn_course.imp_left fun ⟨f, hfails⟩ => ⟨⟨f, hfails.phase⟩, hfails.discards⟩

theorem Turn.hub (hturn : b.Turn a b') : b'.hub = (b.hub.act a).1 := by
  cases hturn <;> rfl

theorem Turn.phase (hturn : b.Turn a b') : b'.phase = b.phase := by
  cases hturn <;> rfl

/-- A loop that runs and fails does so in one of these ways. -/
theorem turn_fails {f : Fault} (hruns : b.phase = .running) (hfault : b.turn.phase = .failed f) :
    b.Fails f b.turn := by
  rcases b.turn_course with ⟨f', hfails⟩ | ⟨a, hturn⟩
  · obtain rfl : f' = f := Phase.failed.inj (hfails.phase.symm.trans hfault)
    exact hfails
  · cases hfault.symm.trans (hturn.phase.trans hruns)

theorem Turn.lobby (hturn : b.Turn a b') : b'.lobby = b.lobby := by
  cases hturn <;> rfl

theorem Turn.heartbeat (hturn : b.Turn a b') : b'.heartbeat = b.heartbeat := by
  cases hturn <;> rfl

/-- The loop takes no time, and does not read. -/
theorem Turn.ne (hturn : b.Turn a b') : (∀ span, a ≠ .wait span) ∧ ∀ c, a ≠ .read c := by
  cases hturn <;> exact ⟨nofun, nofun⟩

theorem Turn.isFault (hturn : b.Turn a b') : (b.hub.act a).2.isFault = false := by
  cases hturn with
  | released => rfl
  | dispatched => rfl
  | reaped => rfl
  | @answered ticket g registrations answer hfree hwaits hcount hfault =>
      rw [Hub.act]
      cases hanswer : (b.hub.register g).2 with
      | ok c => rfl
      | error o =>
          cases o with
          | refusal r => rfl
          | fault f => exact absurd hanswer (hfault f)

/-! ## What the loop keeps -/

/-- What each turn keeps is kept by any number of them. -/
theorem turns_keep {P : Broker → Prop} (hturn : ∀ c, P c → c.isIdle = false → P c.turn) (n : Nat)
    (hb : P b) : P (turns n b) := by
  induction n generalizing b with
  | zero => exact hb
  | succ n ih =>
      rw [turns]
      split
      · exact hb
      · next hbusy => exact ih (hturn b hb (Bool.not_eq_true _ ▸ hbusy))

/-- What is kept by each turn, and when the lobby is let in, is kept by any number of spells. -/
theorem spells_keep {P : Broker → Prop} (hturn : ∀ c, P c → c.isIdle = false → P c.turn)
    (hletIn : ∀ c, P c → P c.letIn) (enough : Broker → Bool) (n : Nat) (hb : P b) :
    P (spells enough n b) := by
  induction n generalizing b with
  | zero => exact hb
  | succ n ih =>
      rw [spells]
      split
      · exact hb
      · exact ih (hletIn _ (turns_keep hturn spellLength hb))

/-! ## Turns until the loop is idle -/

theorem turn_workload (hwaits : 0 < b.workload) : b.turn.workload < b.workload := by
  rcases b.turn_cases with ⟨-, hfree, -⟩ | ⟨a, hturn⟩
  · omega
  · generalize b.turn = b' at hturn ⊢
    cases hturn with
    | released hwaits => simp only [workload, setAlarm, hwaits, List.length_cons]; omega
    | answered hfree hwaits => simp only [workload, setAlarm, hwaits, List.length_cons]; omega
    | dispatched hfree hfree' hwaits =>
        simp only [workload, setAlarm, hwaits, List.length_cons]; omega
    | reaped hfree => omega

theorem turn_lobby (b : Broker) : b.turn.lobby.length ≤ b.lobby.length := by
  rcases b.turn_cases with ⟨-, -, hlobby⟩ | ⟨a, hturn⟩
  · simp [hlobby]
  · rw [hturn.lobby]

theorem isIdle_of_not_running (hphase : b.isRunning = false) : b.isIdle = true := by
  rw [isIdle, hphase]
  rfl

theorem isRunning_iff : b.isRunning = true ↔ b.phase = .running := beq_iff_eq

theorem isRunning_of_failed {f : Fault} (hfailed : b.phase = .failed f) : b.isRunning = false := by
  rw [isRunning, hfailed]
  rfl

/-- The most turns that the loop takes until it is idle. -/
def rank (b : Broker) : Nat :=
  if b.isIdle then 0
  else if b.workload = 0 then (if b.hub.deadlineOverflows then 1 else 2)
  else b.workload + 2

theorem rank_le (b : Broker) : b.rank ≤ b.workload + 2 := by
  unfold rank
  split
  · omega
  split
  · split <;> omega
  · exact Nat.le_refl _

theorem rank_eq_zero : b.rank = 0 ↔ b.isIdle = true := by
  unfold rank
  split
  · next hidle => simp [hidle]
  next hbusy =>
  split
  · split <;> simp [hbusy]
  · simp [hbusy]

theorem turn_rank (hbusy : b.isIdle = false) : b.turn.rank < b.rank := by
  have hpos : 0 < b.rank := Nat.pos_of_ne_zero fun hzero => by
    rw [rank_eq_zero, hbusy] at hzero
    cases hzero
  rcases b.turn_cases with ⟨⟨f, hfailed⟩, -, -⟩ | ⟨a, hturn⟩
  · rwa [rank_eq_zero.mpr (isIdle_of_not_running (isRunning_of_failed hfailed))]
  by_cases hwaits : 0 < b.workload
  · have hless := turn_workload hwaits
    have hle := b.turn.rank_le
    have hrank : b.rank = b.workload + 2 := by
      unfold rank
      rw [hbusy, if_neg Bool.false_ne_true, if_neg (Nat.ne_of_gt hwaits)]
    omega
  · -- after a look at the clients there is nothing to do, unless a deadline is too late
    have hfree : b.workload = 0 := Nat.eq_zero_of_not_pos hwaits
    generalize hb' : b.turn = b' at hturn ⊢
    cases hturn with
    | released hwaits => simp [workload, hwaits] at hfree
    | answered _ hwaits => simp [workload, hwaits] at hfree
    | dispatched _ _ hwaits => simp [workload, hwaits] at hfree
    | reaped _ hclock =>
        have hrank : b.rank = 2 := by simp [rank, hbusy, hfree, hclock]
        have hreap : ({ b with hub := b.hub.reap }.setAlarm .stall).isReapDue = false :=
          b.not_reapDue_reap
        have hfree' : ({ b with hub := b.hub.reap }.setAlarm .stall).workload = 0 := hfree
        have hle : ({ b with hub := b.hub.reap }.setAlarm .stall).rank ≤ 1 := by
          unfold rank
          split
          · exact Nat.zero_le 1
          next hbusy' =>
          have hclock' :
              ({ b with hub := b.hub.reap }.setAlarm .stall).hub.deadlineOverflows = true := by
            by_contra hclock'
            exact hbusy' (by simp [isIdle, hfree', hreap, hclock'])
          simp [hclock']
        omega

theorem turns_rank (n : Nat) (b : Broker) : (turns n b).rank ≤ b.rank - n := by
  induction n generalizing b with
  | zero => exact Nat.le_refl _
  | succ n ih =>
      rw [turns]
      split
      · next hidle => rw [rank_eq_zero.mpr hidle]; exact Nat.zero_le _
      · next hbusy =>
          have hturn := turn_rank (Bool.not_eq_true _ ▸ hbusy)
          have hrest := ih b.turn
          omega

/-! ## Spells until nothing is left to do -/

/-- The requests that wait, in a queue or in the lobby. -/
def waiting (b : Broker) : Nat := b.workload + b.lobby.length

/-- Nothing is left to do at the present time. -/
def AtRest (b : Broker) : Prop := b.isIdle = true ∧ b.lobby = []

/-- Nobody waits in the lobby of a loop that has ended. -/
def Orderly (b : Broker) : Prop := b.isRunning = false → b.lobby = []

theorem turn_waiting (b : Broker) : b.turn.waiting ≤ b.waiting := by
  have hlobby := b.turn_lobby
  unfold waiting
  by_cases hwaits : 0 < b.workload
  · have hless := turn_workload hwaits
    omega
  · rcases b.turn_cases with ⟨-, hfree, -⟩ | ⟨a, hturn⟩
    · omega
    · generalize b.turn = b' at hturn hlobby ⊢
      cases hturn with
      | released hwaits' => simp [workload, hwaits'] at hwaits
      | answered _ hwaits' => simp [workload, hwaits'] at hwaits
      | dispatched _ _ hwaits' => simp [workload, hwaits'] at hwaits
      | reaped hfree => exact Nat.add_le_add_left hlobby _

theorem turns_waiting (n : Nat) (b : Broker) :
    (turns n b).waiting ≤ b.waiting ∧ (turns n b).lobby.length ≤ b.lobby.length := by
  induction n generalizing b with
  | zero => exact ⟨Nat.le_refl _, Nat.le_refl _⟩
  | succ n ih =>
      rw [turns]
      split
      · exact ⟨Nat.le_refl _, Nat.le_refl _⟩
      · obtain ⟨hwaiting, hlobby⟩ := ih b.turn
        exact ⟨hwaiting.trans b.turn_waiting, hlobby.trans b.turn_lobby⟩

/-- A spell of a loop with work to do gets some of it done. -/
theorem spell_waiting (hruns : b.isRunning = true) (hwaits : 0 < b.workload) :
    b.spell.waiting < b.waiting := by
  have hbusy : b.isIdle = false := by simp [isIdle, hruns, Nat.ne_of_gt hwaits]
  have hless := turn_workload hwaits
  have hlobby := b.turn_lobby
  have hrest := (turns_waiting 127 b.turn).1
  rw [spell, spellLength, turns, hbusy, if_neg Bool.false_ne_true]
  unfold waiting at hrest ⊢
  omega

theorem turn_orderly (b : Broker) (horderly : b.Orderly) : b.turn.Orderly := by
  intro hphase
  rcases b.turn_cases with ⟨-, -, hlobby⟩ | ⟨a, hturn⟩
  · exact hlobby
  · rw [isRunning, hturn.phase] at hphase
    rw [hturn.lobby]
    exact horderly hphase

theorem turns_orderly (n : Nat) (horderly : b.Orderly) : (turns n b).Orderly :=
  turns_keep (fun c hc _ => c.turn_orderly hc) n horderly

theorem letIn_waiting (b : Broker) : b.letIn.waiting = b.waiting := by
  simp only [waiting, workload, letIn, List.length_append, List.length_take, List.length_drop]
  omega

theorem letIn_of_empty (hlobby : b.lobby = []) : b.letIn = b := by
  obtain ⟨hub, phase, releases, registrations, lobby, intake⟩ := b
  obtain rfl : lobby = [] := hlobby
  simp [letIn]

/-- Whoever is still in the lobby has found the queue full. -/
theorem letIn_workload (hlobby : b.letIn.lobby ≠ []) : 0 < b.letIn.workload := by
  have hroom : queueLength - b.registrations.length < b.lobby.length := by
    by_contra hfits
    exact hlobby (List.drop_eq_nil_of_le (Nat.le_of_not_lt hfits))
  simp only [queueLength] at hroom
  simp only [workload, letIn, queueLength, List.length_append, List.length_take]
  omega

/-- The most spells that the loop needs to come to rest. A queue that has nothing in it
is filled from the lobby by the first one. -/
def distance (b : Broker) : Nat :=
  if b.isIdle && b.lobby.isEmpty then 0
  else if b.workload = 0 ∧ b.lobby ≠ [] then b.waiting + 2
  else b.waiting + 1

theorem distance_of_atRest (hrest : b.AtRest) : b.distance = 0 := by
  rw [distance, hrest.1, hrest.2]
  rfl

theorem spell_distance (horderly : b.Orderly) (hbusy : ¬ b.AtRest) :
    b.spell.letIn.distance < b.distance := by
  have hruns : b.isRunning = true := by
    by_contra hphase
    rw [Bool.not_eq_true] at hphase
    exact hbusy ⟨isIdle_of_not_running hphase, horderly hphase⟩
  have hcond : ¬ (b.isIdle && b.lobby.isEmpty) = true := by
    rw [Bool.and_eq_true, List.isEmpty_iff]
    exact hbusy
  have hafter : b.spell.letIn.distance ≤ b.spell.waiting + 1 := by
    rw [← letIn_waiting]
    unfold distance
    split
    · exact Nat.zero_le _
    · rw [if_neg]
      rintro ⟨hfree, hlobby⟩
      exact Nat.ne_of_gt (letIn_workload hlobby) hfree
  obtain ⟨hwaiting, hlobby⟩ := turns_waiting spellLength b
  rw [← spell] at hwaiting hlobby
  -- a spell serves some of the work, or comes to rest and lets the lobby in
  by_cases hwaits : 0 < b.workload
  · have hless := spell_waiting hruns hwaits
    have hdistance : b.distance = b.waiting + 1 := by
      rw [distance, if_neg hcond, if_neg fun hfree => Nat.ne_of_gt hwaits hfree.1]
    omega
  · have hfree : b.workload = 0 := Nat.eq_zero_of_not_pos hwaits
    by_cases hempty : b.lobby = []
    · have hidle : b.spell.isIdle = true := by
        have hrank := turns_rank spellLength b
        have hle := b.rank_le
        rw [hfree] at hle
        rw [← rank_eq_zero, spell]
        simp only [spellLength] at hrank ⊢
        omega
      rw [hempty, List.length_nil, Nat.le_zero, List.length_eq_zero_iff] at hlobby
      have hpos : 0 < b.distance := by
        rw [distance, if_neg hcond]
        split <;> exact Nat.succ_pos _
      rwa [letIn_of_empty hlobby, distance_of_atRest ⟨hidle, hlobby⟩]
    · have hdistance : b.distance = b.waiting + 2 := by
        rw [distance, if_neg hcond, if_pos ⟨hfree, hempty⟩]
      omega

theorem distance_le_spellBound (b : Broker) : b.distance ≤ b.spellBound := by
  unfold distance spellBound
  split
  · exact Nat.zero_le _
  · split
    · exact Nat.le_refl _
    · exact Nat.le_succ _

/-- Spells go on until it is enough, or until nothing is left to do. -/
theorem spells_end (enough : Broker → Bool) {n : Nat} (horderly : b.Orderly) (hn : b.distance ≤ n) :
    enough (spells enough n b) = true ∨ (spells enough n b).AtRest := by
  induction n generalizing b with
  | zero =>
      refine Or.inr ?_
      by_contra hbusy
      have hless := spell_distance horderly hbusy
      omega
  | succ n ih =>
      rw [spells]
      split
      · next hdone =>
          rw [Bool.or_eq_true, Bool.and_eq_true, List.isEmpty_iff] at hdone
          exact hdone
      · next hmore =>
          rw [Bool.or_eq_true, Bool.and_eq_true, List.isEmpty_iff, not_or] at hmore
          have hless := spell_distance horderly hmore.2
          refine ih ?_ (by omega)
          intro hphase
          have hlobby := turns_orderly spellLength horderly hphase
          rw [← spell] at hlobby
          rw [letIn_of_empty hlobby]
          exact hlobby

/-- **The loop comes to rest.** When everything has been settled, no request waits
anywhere, and no client's time is up. -/
theorem settle_atRest (horderly : b.Orderly) : b.settle.AtRest :=
  (spells_end (fun _ => false) horderly b.distance_le_spellBound).resolve_left Bool.false_ne_true

/-! ## A loop that has ended -/

theorem turns_of_idle (n : Nat) (hidle : b.isIdle = true) : turns n b = b := by
  cases n with
  | zero => rfl
  | succ n => rw [turns, if_pos hidle]

theorem spells_phase (enough : Broker → Bool) (n : Nat) (hphase : b.isRunning = false) :
    (spells enough n b).phase = b.phase := by
  refine spells_keep (P := fun c => c.phase = b.phase) ?_ (fun _ => id) enough n rfl
  intro c hsame hbusy
  have hphase' : c.isRunning = false := by rwa [isRunning, hsame]
  cases hbusy.symm.trans (isIdle_of_not_running hphase')

end Broker

end EventRelay
