import EventRelay.Proofs.Later

/-!
# Answers

A registration waits for its answer. What it asks for was decided when it was made
(`register_queued`), and what it gets is what the hub does when the loop takes it up
(`turn_answer`). No turn loses a ticket, and so a loop that has come to rest has answered
everybody: `settle_answers`. So has one that went on until there was an answer: `await_answers`.
-/

namespace EventRelay

namespace Broker

variable {b b' : Broker} {o : Option Act} {a : Act}

/-! ## A session is asked for -/

theorem enqueue_serial (b : Broker) (n : Ticket) (g : Registration) :
    (b.enqueue n g).serial = b.serial := by
  unfold enqueue
  split <;> rfl

theorem enqueue_phase (b : Broker) (n : Ticket) (g : Registration) :
    (b.enqueue n g).phase = b.phase := by
  unfold enqueue
  split <;> rfl

theorem enqueue_answers (b : Broker) (n : Ticket) (g : Registration) :
    (b.enqueue n g).answers = b.answers := by
  unfold enqueue
  split <;> rfl

theorem enqueue_awaited (b : Broker) (n : Ticket) (g : Registration) :
    (b.enqueue n g).awaited = b.awaited := by
  unfold enqueue
  split <;> rfl

/-- A move leaves the loop and its answers as they are, unless the loop takes a turn or is
stopped. -/
theorem Move.drives (hmove : b.Move o b') :
    (b'.phase = b.phase ∧ b'.answers = b.answers ∧
      (b.isRunning = true → b'.awaited = b.awaited)) ∨
    (∃ a, o = some a ∧ b.isIdle = false ∧ b.Turn a b.turn ∧ b' = b.turn) ∨
    b.isRunning = true ∧ b.awaited = false ∧ b.hub.deadlineOverflows = false ∧ b' = b.stop := by
  cases hmove with
  | turned hbusy hturn => exact Or.inr (Or.inl ⟨_, rfl, hbusy, hturn, rfl⟩)
  | stopped hruns hfirst hclock => exact Or.inr (Or.inr ⟨hruns, hfirst, hclock, rfl⟩)
  | asked arrival draws =>
      refine Or.inl ?_
      have hasked := b.register_cases arrival draws
      generalize b.register arrival draws = result at hasked ⊢
      cases hasked with
      | refused => exact ⟨rfl, rfl, fun _ => rfl⟩
      | queued => exact ⟨enqueue_phase .., enqueue_answers .., fun _ => enqueue_awaited ..⟩
  | releasing r =>
      obtain ⟨h, releases, -, -, heq⟩ := b.requestRelease_eq r
      exact Or.inl (heq ▸ ⟨rfl, rfl, fun _ => rfl⟩)
  | sent m =>
      obtain ⟨h, intake, -, -, heq⟩ := b.send_eq m
      exact Or.inl (heq ▸ ⟨rfl, rfl, fun _ => rfl⟩)
  | read c =>
      obtain ⟨h, -, heq⟩ := b.read_eq c
      exact Or.inl (heq ▸ ⟨rfl, rfl, fun _ => rfl⟩)
  | beat =>
      obtain ⟨h, intake, -, -, heq⟩ := b.runHeartbeat_eq
      exact Or.inl (heq ▸ ⟨rfl, rfl, fun _ => rfl⟩)
  | joined hended =>
      obtain ⟨h, -, -, heq⟩ := b.joinTasks_eq
      exact Or.inl (heq ▸ ⟨rfl, rfl, fun hruns => absurd hruns (by simp [hended])⟩)
  | _ => exact Or.inl ⟨rfl, rfl, fun _ => rfl⟩

/-- A registration that joins those who wait asks for what may be claimed now. -/
theorem register_queued {arrival : Arrival} {draws : List Draw} {n : Ticket}
    (hok : b.register arrival draws = (b', .ok n)) : b.isRunning = true ∧ n = b.serial ∧ ∃ h g,
      b' = ({ b with hub := h, serial := b.serial + 1 } : Broker).enqueue n g ∧
      g.metadata = arrival.metadata ∧
      g.candidate = arrival.session.filter fun id => b.registry.claimable id arrival.metadata := by
  have hqueued : ∀ (h : Hub) (g : Registration), g.metadata = arrival.metadata →
      (if b.isRunning then
        (({ b with hub := h, serial := b.serial + 1 } : Broker).enqueue b.serial g, .ok b.serial)
        else ({ b with hub := h }, .error Refusal.shutDown)) = (b', Except.ok n) →
      b.isRunning = true ∧ n = b.serial ∧ ∃ h',
        b' = ({ b with hub := h', serial := b.serial + 1 } : Broker).enqueue n g := by
    intro h g hmetadata heq
    split at heq
    · next hruns =>
        obtain ⟨rfl, hn⟩ := Prod.mk.inj heq
        obtain rfl := Except.ok.inj hn
        exact ⟨hruns, rfl, h, rfl⟩
    · cases heq
  unfold register at hok
  split at hok
  · cases hok
  cases hsession : arrival.session with
  | none =>
      rw [hsession] at hok
      obtain ⟨hruns, hn, h, heq⟩ := hqueued b.hub _ rfl hok
      exact ⟨hruns, hn, h, _, heq, rfl, rfl⟩
  | some id =>
      rw [hsession] at hok
      dsimp only at hok
      split at hok
      · next hclaimable =>
          obtain ⟨hruns, hn, h, heq⟩ := hqueued b.hub _ rfl hok
          exact ⟨hruns, hn, h, _, heq, rfl, by simp [hclaimable, Option.filter]⟩
      · next hclaimable =>
          obtain ⟨hruns, hn, h, heq⟩ := hqueued (b.note _).hub _ rfl hok
          exact ⟨hruns, hn, h, _, heq, rfl, by simp [hclaimable, Option.filter]⟩

theorem work_register {n : Ticket} {g : Registration} {rest : List (Ticket × Registration)}
    (hfree : b.releases = []) (hwaits : b.registrations = (n, g) :: rest) :
    b.work = ({ b with registrations := rest } : Broker).accept n g := by
  unfold work
  rw [hfree, hwaits]

/-- The answer to the registration that the loop takes up. -/
theorem turn_answer {n : Ticket} {g : Registration} {rest : List (Ticket × Registration)}
    (hfree : b.releases = []) (hwaits : b.registrations = (n, g) :: rest) (hgoes : b.turn.Goes) :
    (b.hub.act (.register g)).2.isFault = false ∧
      ∀ c, b.turn.answer? n = some (.ok c) ↔ (b.hub.act (.register g)).2 = .admitted c := by
  have hload : b.workload ≠ 0 := by simp [workload, hwaits]
  unfold turn at hgoes ⊢
  split at hgoes
  · exact absurd rfl (hgoes _)
  next hclock =>
  rw [if_neg hclock, if_neg hload]
  rw [work_register hfree hwaits] at hgoes ⊢
  rw [Hub.act]
  have hcount : b.hub.overcounted? g = none := by
    by_contra hfull
    obtain ⟨id, hfull⟩ := Option.ne_none_iff_exists'.mp hfull
    simp only [accept, hfull] at hgoes
    exact absurd rfl (hgoes _)
  unfold accept at hgoes ⊢
  dsimp only at hgoes ⊢
  rw [hcount] at hgoes ⊢
  cases hanswer : b.hub.register g with
  | mk h' answer =>
      rw [hanswer] at hgoes
      cases answer with
      | ok c =>
          refine ⟨rfl, fun c' => ?_⟩
          simp [answer?, setAlarm, Outcome.ofAnswer]
      | error o =>
          cases o with
          | refusal r =>
              refine ⟨rfl, fun c' => ?_⟩
              simp [answer?, setAlarm, Outcome.ofAnswer]
          | fault f => exact absurd rfl (hgoes f)

/-- Whoever is answered in a turn with a connection was admitted in it. -/
theorem Turn.handed {n : Ticket} {c : Client} (hturn : b.Turn a b.turn) (hgoes : b.Goes)
    (hmem : (n, .ok c) ∈ b.turn.answers) :
    (n, .ok c) ∈ b.answers ∨ (b.hub.act a).2 = .admitted c := by
  have hgoes' : b.turn.Goes := fun f hfailed => hgoes f (hturn.phase ▸ hfailed)
  generalize hb' : b.turn = b' at hturn hmem
  cases hturn with
  | released => exact Or.inl hmem
  | dispatched => exact Or.inl hmem
  | reaped => exact Or.inl hmem
  | answered hfree hwaits =>
      rcases List.mem_cons.mp hmem with heq | hmem
      · obtain ⟨rfl, rfl⟩ := Prod.mk.inj heq
        refine Or.inr (((turn_answer hfree hwaits hgoes').2 c).mp ?_)
        rw [hb']
        simp [answer?, setAlarm]
      · exact Or.inl hmem

/-- Nobody is given a connection when the queues are discarded. -/
theorem handed_discardQueues {n : Ticket} {c : Client}
    (hmem : (n, .ok c) ∈ b.discardQueues.answers) :
    (n, .ok c) ∈ b.answers := by
  rcases List.mem_append.mp hmem with hrefused | hmem
  · obtain ⟨e, -, heq⟩ := List.mem_map.mp hrefused
    cases heq
  · exact hmem

/-- Nobody is given a connection but by the act that admits it. -/
theorem Move.handed {n : Ticket} {c : Client} (hmove : b.Move o b') (hgoes : b.Goes)
    (hmem : (n, .ok c) ∈ b'.answers) :
    (n, .ok c) ∈ b.answers ∨ ∃ a, o = some a ∧ (b.hub.act a).2 = .admitted c := by
  rcases hmove.drives with ⟨-, hanswers, -⟩ | ⟨a, ha, -, hturn, rfl⟩ | ⟨hruns, hfirst, hclock, rfl⟩
  · exact Or.inl (hanswers ▸ hmem)
  · exact (hturn.handed hgoes hmem).imp_right fun hout => ⟨a, ha, hout⟩
  · obtain ⟨h, -, -, heq⟩ := stop_eq hruns hfirst hclock
    rw [heq] at hmem
    exact Or.inl (handed_discardQueues hmem)

/-! ## Every request is answered -/

/-- The tickets of those who wait, and of those who have their answers. -/
def tickets (b : Broker) : List Ticket := b.pending.map Prod.fst ++ b.answers.map Prod.fst

theorem answer?_isSome {n : Ticket} : (b.answer? n).isSome = true ↔ n ∈ b.answers.map Prod.fst := by
  rw [answer?, List.lookup_isSome_iff, List.mem_map]
  simp only [beq_iff_eq, eq_comm (a := n)]

/-- Whoever waits when the queues are discarded is answered, too. -/
theorem tickets_discardQueues (b : Broker) : b.discardQueues.tickets = b.tickets := by
  simp [tickets, pending, discardQueues, Function.comp_def]

/-- No turn loses a ticket, or gives one out. -/
theorem tickets_turn (b : Broker) : b.turn.tickets.Perm b.tickets := by
  have hmoved : ∀ {n : Ticket} {g : Registration} {rest : List (Ticket × Registration)}
      (answer : Except Refusal Client), b.registrations = (n, g) :: rest →
      ({ b with registrations := rest, answers := (n, answer) :: b.answers }
        : Broker).tickets.Perm b.tickets := by
    intro n g rest answer hwaits
    simp only [tickets, pending, hwaits, List.map_append, List.map_cons, List.cons_append]
    exact List.perm_middle
  rcases b.turn_course with ⟨f, hfails⟩ | ⟨a, hturn⟩
  · generalize b.turn = b' at hfails
    cases hfails with
    | late => exact .of_eq b.tickets_discardQueues
    | counting _ _ hwaits =>
        exact (List.Perm.of_eq (tickets_discardQueues _)).trans (hmoved _ hwaits)
    | admitting _ _ hwaits =>
        exact (List.Perm.of_eq (tickets_discardQueues _)).trans (hmoved _ hwaits)
  · generalize b.turn = b' at hturn
    cases hturn with
    | answered _ hwaits => exact hmoved _ hwaits
    | released => exact .refl _
    | dispatched => exact .refl _
    | reaped => exact .refl _

/-- A loop that has ended has refused whoever waited. -/
def Dismissed (b : Broker) : Prop := b.isRunning = false → b.pending = []

theorem turn_dismissed (hdone : b.Dismissed) : b.turn.Dismissed := by
  intro hphase
  rcases b.turn_cases with ⟨-, hfree, hlobby⟩ | ⟨a, hturn⟩
  · rw [pending, (workload_eq_zero.mp hfree).2.1, hlobby]
    rfl
  · refine List.eq_nil_iff_forall_not_mem.mpr fun e he => ?_
    rw [isRunning, hturn.phase] at hphase
    have he := hturn.pending he
    rw [hdone hphase] at he
    cases he

theorem spells_tickets (enough : Broker → Bool) (k : Nat) (hdone : b.Dismissed) :
    (spells enough k b).Dismissed ∧ (spells enough k b).tickets.Perm b.tickets := by
  refine spells_keep (P := fun c => c.Dismissed ∧ c.tickets.Perm b.tickets) ?_ ?_ enough k
    ⟨hdone, .refl _⟩
  · rintro c ⟨hdone', hperm⟩ -
    exact ⟨turn_dismissed hdone', c.tickets_turn.trans hperm⟩
  · rintro c ⟨hdone', hperm⟩
    rw [Dismissed, tickets, letIn_pending]
    exact ⟨hdone', hperm⟩

/-- A loop that was served until it came to rest has answered everybody. -/
theorem AtRest.answers {n : Ticket} (hrest : b.AtRest) (hdone : b.Dismissed) (hn : n ∈ b.tickets) :
    (b.answer? n).isSome = true := by
  have hnobody : b.pending = [] := by
    cases hphase : b.isRunning with
    | false => exact hdone hphase
    | true =>
        have hidle := hrest.1
        simp only [isIdle, hphase, Bool.not_true, Bool.false_or, Bool.and_eq_true,
          beq_iff_eq] at hidle
        rw [pending, (workload_eq_zero.mp hidle.1.1).2.1, hrest.2]
        rfl
  rw [answer?_isSome]
  rwa [tickets, hnobody] at hn

/-- **The loop answers.** When everything has been settled, whoever waited has an answer. -/
theorem settle_answers {n : Ticket} (hruns : b.isRunning = true) (hn : n ∈ b.tickets) :
    (b.settle.answer? n).isSome = true := by
  obtain ⟨hdone, hperm⟩ := spells_tickets (fun _ => false) b.spellBound
    fun hphase => absurd (hruns.symm.trans hphase) (by decide)
  have hrest : b.settle.AtRest :=
    settle_atRest fun hphase => absurd (hruns.symm.trans hphase) (by decide)
  exact hrest.answers hdone (hperm.mem_iff.mpr hn)

/-- Whoever waits for an answer gets one. -/
theorem await_answers {n : Ticket} (hruns : b.isRunning = true) (hn : n ∈ b.tickets) :
    ((b.await [n]).answer? n).isSome = true := by
  obtain ⟨hdone, hperm⟩ := spells_tickets (fun b => [n].all fun t => (b.answer? t).isSome)
    b.spellBound fun hphase => absurd (hruns.symm.trans hphase) (by decide)
  rcases spells_end (fun b => [n].all fun t => (b.answer? t).isSome)
    (fun hphase => absurd (hruns.symm.trans hphase) (by decide)) b.distance_le_spellBound with
    henough | hrest
  · exact List.all_eq_true.mp henough n (List.mem_singleton_self n)
  · exact hrest.answers hdone (hperm.mem_iff.mpr hn)

end Broker

end EventRelay
