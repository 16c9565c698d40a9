import EventRelay.Proofs.Serving

/-!
# What happens in between

A `Broker.Stretch` is all that happened to a broker between two points, with the acts of its
hub: as in `Broker.Reachable` things happen in any order, and the loop gets to run as late as it
likes. Whoever asks for a connection and waits for it makes the loop work (`Broker.Toil`), and
is answered at the moment at which the loop comes to the registration; the loop has then taken
up nothing but what waited before (`Broker.Reachable.asks`).

`Trail.unclaimed` is about a session in a stretch: if nobody else claims it, it stays free from
the end of its connection for as long as it is kept.
-/

namespace EventRelay

namespace Broker

variable {b b' b'' b₀ : Broker} {past new new' : List Moment} {o : Option Act} {a : Act}
  {n : Ticket} {g : Registration}

/-! ## Tickets -/

/-- Nobody has the ticket of another, and no ticket will be given out again. -/
structure Numbered (b : Broker) : Prop where
  nodup : b.tickets.Nodup
  old : ∀ n ∈ b.tickets, n < b.serial

theorem tickets_enqueue (b : Broker) (n : Ticket) (g : Registration) :
    (b.enqueue n g).tickets.Perm (n :: b.tickets) := by
  have hpending : (b.enqueue n g).pending.Perm ((n, g) :: b.pending) := by
    unfold pending enqueue
    split
    · rw [List.append_assoc]
      exact List.perm_middle
    · rw [← List.append_assoc]
      exact List.perm_append_singleton _ _
  rw [tickets, enqueue_answers]
  exact (hpending.map Prod.fst).append_right _

theorem tickets_abandon (b : Broker) (ticket : Ticket) :
    (b.abandon ticket).tickets.Sublist b.tickets := by
  have hqueue : (b.abandon ticket).registrations.map Prod.fst = b.registrations.map Prod.fst := by
    rw [abandon, List.map_map]
    rfl
  unfold tickets pending
  rw [List.map_append, List.map_append, hqueue]
  exact (((List.Sublist.refl _).append (List.filter_sublist.map _))).append (.refl _)

/-- Only a new ticket joins those that were given out. -/
theorem Move.tickets (hmove : b.Move o b') :
    b'.tickets.Subperm b.tickets ∧ b.serial ≤ b'.serial ∨
      b'.tickets.Perm (b.serial :: b.tickets) ∧ b'.serial = b.serial + 1 := by
  have hsame : b'.tickets = b.tickets →
      b'.tickets.Subperm b.tickets ∧ b.serial ≤ b'.serial ∨
        b'.tickets.Perm (b.serial :: b.tickets) ∧ b'.serial = b.serial + 1 :=
    fun htickets => Or.inl ⟨htickets ▸ .refl _, hmove.serial_le⟩
  cases hmove with
  | asked arrival draws =>
      have hasked := b.register_cases arrival draws
      generalize b.register arrival draws = result at hasked hsame ⊢
      cases hasked with
      | refused => exact hsame rfl
      | queued => exact Or.inr ⟨tickets_enqueue _ _ _, enqueue_serial _ _ _⟩
  | abandoned ticket => exact Or.inl ⟨(b.tickets_abandon ticket).subperm, Nat.le_refl _⟩
  | releasing r =>
      obtain ⟨h, releases, -, -, heq⟩ := b.requestRelease_eq r
      exact hsame (heq ▸ rfl)
  | sent m =>
      obtain ⟨h, intake, -, -, heq⟩ := b.send_eq m
      exact hsame (heq ▸ rfl)
  | read c =>
      obtain ⟨h, -, heq⟩ := b.read_eq c
      exact hsame (heq ▸ rfl)
  | turned hbusy hturn => exact Or.inl ⟨b.tickets_turn.subperm, Nat.le_of_eq hturn.serial.symm⟩
  | letIn =>
      refine hsame ?_
      rw [Broker.tickets, letIn_pending]
      rfl
  | beat =>
      obtain ⟨h, intake, -, -, heq⟩ := b.runHeartbeat_eq
      exact hsame (heq ▸ rfl)
  | joined =>
      obtain ⟨h, -, -, heq⟩ := b.joinTasks_eq
      exact hsame (heq ▸ rfl)
  | stopped hruns hfirst hclock =>
      obtain ⟨h, -, -, heq⟩ := stop_eq hruns hfirst hclock
      exact hsame (heq ▸ b.tickets_discardQueues)
  | numbered => exact hsame rfl
  | reported => exact hsame rfl
  | looked => exact hsame rfl
  | left => exact hsame rfl
  | set => exact hsame rfl
  | swept => exact hsame rfl
  | waited => exact hsame rfl

theorem Numbered.move (hnumbered : b.Numbered) (hmove : b.Move o b') : b'.Numbered := by
  obtain ⟨hnodup, hold⟩ := hnumbered
  rcases hmove.tickets with ⟨hsub, hserial⟩ | ⟨hperm, hserial⟩
  · obtain ⟨kept, hkept, hsublist⟩ := hsub
    exact ⟨hkept.nodup_iff.mp (hnodup.sublist hsublist),
      fun n hn => Nat.lt_of_lt_of_le (hold n (hsublist.subset (hkept.mem_iff.mpr hn))) hserial⟩
  · refine ⟨hperm.nodup_iff.mpr (List.nodup_cons.mpr ⟨?_, hnodup⟩), fun n hn => ?_⟩
    · exact fun hmem => Nat.lt_irrefl _ (hold _ hmem)
    · rw [hserial]
      rcases List.mem_cons.mp (hperm.mem_iff.mp hn) with rfl | hn
      · exact Nat.lt_succ_self _
      · exact Nat.lt_succ_of_lt (hold n hn)

theorem turn_serial (b : Broker) : b.turn.serial = b.serial := by
  rcases b.turn_course with ⟨f, hfails⟩ | ⟨a, hturn⟩
  · generalize b.turn = b' at hfails
    cases hfails <;> rfl
  · exact hturn.serial

theorem Reachable.numbered (hnew : b₀.New) (hreach : b₀.Reachable b) : b.Numbered := by
  induction hreach with
  | refl =>
      rw [hnew.initial]
      exact ⟨List.nodup_nil, nofun⟩
  | moved hreach hmove ih => exact ih.move hmove
  | @turned b hreach hbusy ih =>
      refine ⟨b.tickets_turn.nodup_iff.mpr ih.nodup, fun n hn => ?_⟩
      rw [turn_serial]
      exact ih.old n (b.tickets_turn.mem_iff.mp hn)
  | passed hreach hnow ih => exact ⟨ih.nodup, ih.old⟩

/-! ## Stretches -/

/-- All that happened in between, with the acts of the hub. The loop has not failed. -/
inductive Stretch (b : Broker) : List Moment → Broker → Prop
  | refl : Stretch b [] b
  | quiet {new : List Moment} {b' b'' : Broker} (hway : Stretch b new b')
      (hmove : b'.Move none b'') :
      Stretch b new b''
  | act {new : List Moment} {b' b'' : Broker} {a : Act} (hway : Stretch b new b')
      (hmove : b'.Move (some a) b'') : Stretch b (⟨a, b'.hub⟩ :: new) b''
  | passed {new : List Moment} {b' : Broker} {t : Nat} (hway : Stretch b new b')
      (hnow : b'.now ≤ t) :
      Stretch b (⟨.wait (t - b'.now), b'.hub⟩ :: new) (b'.setClock t)

theorem Stretch.trans (hway : b.Stretch new b') (hway' : b'.Stretch new' b'') :
    b.Stretch (new' ++ new) b'' := by
  induction hway' with
  | refl => exact hway
  | quiet _ hmove ih => exact ih.quiet hmove
  | act _ hmove ih => exact ih.act hmove
  | passed _ hnow ih => exact ih.passed hnow

theorem Stretch.reachable (hway : b.Stretch new b') (hreach : b₀.Reachable b) :
    b₀.Reachable b' := by
  induction hway with
  | refl => exact hreach
  | quiet _ hmove ih => exact ih.moved hmove
  | act _ hmove ih => exact ih.moved hmove
  | passed _ hnow ih => exact ih.passed hnow

/-- Whatever may happen is a stretch, unless the loop fails. -/
theorem Reachable.stretch (hreach : b.Reachable b') (hgoes : b'.Goes) :
    ∃ new, b.Stretch new b' := by
  induction hreach with
  | refl => exact ⟨[], .refl⟩
  | @moved b' b'' o hreach hmove ih =>
      obtain ⟨new, hway⟩ := ih (hgoes.before hmove.phase_eq)
      cases o with
      | none => exact ⟨new, hway.quiet hmove⟩
      | some a => exact ⟨_, hway.act hmove⟩
  | @turned b' hreach hbusy ih =>
      obtain ⟨new, hway⟩ := ih <| hgoes.before fun hphase => by
        cases hbusy.symm.trans (isIdle_of_not_running hphase)
      obtain ⟨a, hturn⟩ := b'.turn_cases.resolve_left fun hends =>
        hends.1.elim fun f hfailed => hgoes f hfailed
      exact ⟨_, hway.act (.turned hbusy hturn)⟩
  | passed hreach hnow ih =>
      obtain ⟨new, hway⟩ := ih hgoes
      exact ⟨_, hway.passed hnow⟩

theorem Stretch.goes (hway : b.Stretch new b') (hgoes : b'.Goes) : b.Goes := by
  induction hway with
  | refl => exact hgoes
  | quiet _ hmove ih => exact ih (hgoes.before hmove.phase_eq)
  | act _ hmove ih => exact ih (hgoes.before hmove.phase_eq)
  | passed _ hnow ih => exact ih hgoes

theorem Accounted.stretch (hacc : Accounted past b₀ b) (hway : b.Stretch new b') (hgoes : b'.Goes) :
    Accounted (new ++ past) b₀ b' := by
  induction hway with
  | refl => exact hacc
  | quiet _ hmove ih => exact (ih (hgoes.before hmove.phase_eq)).quiet hmove
  | act _ hmove ih =>
      have hbefore := hgoes.before hmove.phase_eq
      exact (ih hbefore).act hmove hbefore
  | passed _ hnow ih => exact (ih hgoes).passed hnow

/-! ## The loop at work -/

theorem Toil.stretch (htoil : b.Toil new b') : b.Stretch new b' := by
  induction htoil with
  | refl => exact .refl
  | turned _ hbusy hturn ih => exact ih.act (.turned hbusy hturn)
  | letIn _ ih => exact ih.quiet .letIn

/-- The loop takes no time. -/
theorem Toil.now (htoil : b.Toil new b') : b'.now = b.now ∧ ∀ x ∈ new, x.time = b.now := by
  induction htoil with
  | refl => exact ⟨rfl, nofun⟩
  | @turned new b' a htoil hbusy hturn ih =>
      exact ⟨b'.turn_now.trans ih.1, List.forall_mem_cons.mpr ⟨ih.1, ih.2⟩⟩
  | letIn htoil ih => exact ih

theorem Toil.tickets (htoil : b.Toil new b') : b'.tickets.Perm b.tickets := by
  induction htoil with
  | refl => exact .refl _
  | @turned new b' a htoil hbusy hturn ih => exact b'.tickets_turn.trans ih
  | letIn htoil ih =>
      rw [Broker.tickets, letIn_pending]
      exact ih

theorem Toil.pending (htoil : b.Toil new b') {e : Ticket × Registration} (he : e ∈ b'.pending) :
    e ∈ b.pending := by
  induction htoil with
  | refl => exact he
  | turned htoil hbusy hturn ih => exact ih (hturn.pending he)
  | letIn htoil ih =>
      rw [letIn_pending] at he
      exact ih he

/-- The loop is at a registration that waits, or that one waits on while another is served. -/
theorem Turn.takes_up (hturn : b.Turn a b.turn) (hgoes : b.turn.Goes) (hnodup : b.tickets.Nodup)
    (hwaits : (n, g) ∈ b.pending) :
    ((n, g) ∈ b.turn.pending ∧ ∀ g', a = .register g' → ∃ m, m ≠ n ∧ (m, g') ∈ b.pending) ∨
      a = .register g ∧ n ∈ b.turn.answers.map Prod.fst ∧
        ∀ c, b.turn.answer? n = some (.ok c) ↔ (b.hub.act a).2 = .admitted c := by
  generalize hb' : b.turn = b' at hturn
  cases hturn with
  | released => exact Or.inl ⟨hwaits, nofun⟩
  | dispatched => exact Or.inl ⟨hwaits, nofun⟩
  | reaped => exact Or.inl ⟨hwaits, nofun⟩
  | @answered m g' rest answer hfree hqueue =>
      have hfirst : (m, g') ∈ b.pending := by
        rw [Broker.pending, hqueue]
        exact List.mem_cons_self ..
      by_cases hm : m = n
      · subst hm
        obtain ⟨-, rfl⟩ := Prod.mk.inj
          (List.inj_on_of_nodup_map (List.nodup_append'.mp hnodup).1 hfirst hwaits rfl)
        rw [← hb']
        refine Or.inr ⟨rfl, ?_, (turn_answer hfree hqueue hgoes).2⟩
        rw [hb']
        exact List.mem_cons_self ..
      · refine Or.inl ⟨?_, ?_⟩
        · rw [Broker.pending, hqueue] at hwaits
          exact (List.mem_cons.mp hwaits).resolve_left fun heq => hm (congrArg Prod.fst heq).symm
        · rintro g' ⟨⟩
          exact ⟨m, hm, hfirst⟩

/-- Who has an answer keeps it. -/
theorem Turn.answer? (hturn : b.Turn a b') (hnodup : b.tickets.Nodup)
    (hn : n ∈ b.answers.map Prod.fst) :
    n ∈ b'.answers.map Prod.fst ∧ b'.answer? n = b.answer? n := by
  cases hturn with
  | released => exact ⟨hn, rfl⟩
  | dispatched => exact ⟨hn, rfl⟩
  | reaped => exact ⟨hn, rfl⟩
  | @answered m g rest answer hfree hqueue =>
      have hne : n ≠ m := by
        rintro rfl
        refine (List.nodup_append'.mp hnodup).2.2 ?_ hn
        rw [Broker.pending, hqueue]
        exact List.mem_cons_self ..
      refine ⟨List.mem_cons_of_mem _ hn, ?_⟩
      show List.lookup n ((m, answer) :: b.answers) = _
      rw [List.lookup_cons, beq_false_of_ne hne]
      rfl

/-- The registrations among the acts waited under other tickets. -/
def Others (b : Broker) (n : Ticket) (new : List Moment) : Prop :=
  ∀ z ∈ new, ∀ g, z.act = .register g → ∃ m, m ≠ n ∧ (m, g) ∈ b.pending

theorem Others.cons {z : Moment} (hothers : b.Others n new)
    (hfirst : ∀ g, z.act = .register g → ∃ m, m ≠ n ∧ (m, g) ∈ b.pending) : b.Others n (z :: new) :=
  List.forall_mem_cons.mpr ⟨hfirst, hothers⟩

/-- Who waits still waits, while others are served, or was answered at some moment. -/
theorem Toil.takes_up (htoil : b.Toil new b') (hnodup : b.tickets.Nodup)
    (hwaits : (n, g) ∈ b.pending) :
    (n, g) ∈ b'.pending ∧ b.Others n new ∨
      ∃ newer x older, new = newer ++ x :: older ∧ b.Others n older ∧ x.act = .register g ∧
        n ∈ b'.answers.map Prod.fst ∧
        ∀ c, b'.answer? n = some (.ok c) ↔ x.outcome = .admitted c := by
  induction htoil with
  | refl => exact Or.inl ⟨hwaits, nofun⟩
  | letIn htoil ih =>
      rw [letIn_pending]
      exact ih
  | @turned new b' a htoil hbusy hturn ih =>
      have hnodup' : b'.tickets.Nodup := htoil.tickets.nodup_iff.mpr hnodup
      rcases ih with ⟨hstill, hothers⟩ | ⟨newer, x, older, rfl, hothers, hact, hn, hanswer⟩
      · have hgoes : b'.turn.Goes := by
          intro f hfailed
          rw [hturn.phase] at hfailed
          cases hbusy.symm.trans (isIdle_of_not_running (isRunning_of_failed hfailed))
        rcases hturn.takes_up hgoes hnodup' hstill with ⟨hstill', hother⟩ | ⟨rfl, hn, hanswer⟩
        · refine Or.inl ⟨hstill', hothers.cons fun g' hact => ?_⟩
          obtain ⟨m, hm, hpending⟩ := hother g' hact
          exact ⟨m, hm, htoil.pending hpending⟩
        · exact Or.inr ⟨[], ⟨.register g, b'.hub⟩, new, rfl, hothers, rfl, hn, hanswer⟩
      · obtain ⟨hn', hkept⟩ := hturn.answer? hnodup' hn
        exact Or.inr ⟨⟨a, b'.hub⟩ :: newer, x, older, rfl, hothers, hact, hn',
          fun c => hkept ▸ hanswer c⟩

/-- **Who asks and waits is answered.** The loop works until it comes to the registration, which
asks for what could be claimed when it was made, and it has taken up before only registrations
that waited already. The answer is what the hub did then. -/
theorem Reachable.asks (hnew : b₀.New) (hreach : b₀.Reachable b) {arrival : Arrival}
    {draws : List Draw} (hasked : b.register arrival draws = (b', .ok n))
    (htoil : b'.Toil new (b'.await [n])) :
    ∃ newer x older g, new = newer ++ x :: older ∧ x.act = .register g ∧
      g.metadata = arrival.metadata ∧
      g.candidate = arrival.session.filter (fun id => b.registry.claimable id arrival.metadata) ∧
      (∀ z ∈ older, ∀ g', z.act = .register g' → ∃ e ∈ b.pending, e.2 = g') ∧
      ∀ c, (b'.await [n]).answer? n = some (.ok c) ↔ x.outcome = .admitted c := by
  have hmove := Move.asked (b := b) arrival draws
  rw [hasked] at hmove
  have hnodup : b'.tickets.Nodup := ((hreach.moved hmove).numbered hnew).nodup
  obtain ⟨hruns, rfl, h, g, heq, hmetadata, hcandidate⟩ := register_queued hasked
  have hmem : ∀ e, e ∈ b'.pending ↔ e = (b.serial, g) ∨ e ∈ b.pending := by
    intro e
    rw [heq]
    exact mem_pending_enqueue
  have hwaits : (b.serial, g) ∈ b'.pending := (hmem _).mpr (Or.inl rfl)
  have hruns' : b'.isRunning = true := by rwa [isRunning, heq, enqueue_phase]
  have hanswered := await_answers hruns' (List.mem_append_left _ (List.mem_map_of_mem hwaits))
  rcases htoil.takes_up hnodup hwaits with
    ⟨hstill, -⟩ | ⟨newer, x, older, rfl, hothers, hact, -, hanswer⟩
  · -- nobody waits who has an answer
    have hdisjoint := (List.nodup_append'.mp (htoil.tickets.nodup_iff.mpr hnodup)).2.2
    exact absurd (answer?_isSome.mp hanswered) (hdisjoint (List.mem_map_of_mem hstill))
  · refine ⟨newer, x, older, g, rfl, hact, hmetadata, hcandidate, ?_, hanswer⟩
    intro z hz g' hact'
    obtain ⟨m, hm, hpending⟩ := hothers z hz g' hact'
    rcases (hmem _).mp hpending with hours | htheirs
    · exact absurd (congrArg Prod.fst hours) hm
    · exact ⟨_, htheirs, rfl⟩

end Broker

/-! ## A session in between -/

namespace Trail

variable {past newer older more : List Moment} {x y : Moment} {h : Hub} {c : Client}
  {id : SessionId}

/-- A session that nobody is admitted to bears the metadata that it bore. -/
theorem metadata_since (htrail : Trail (newer ++ x :: older) h)
    (hnobody : ∀ z ∈ newer, ∀ c, z.outcome = .admitted c → c.session ≠ id) {s' : Session}
    (hs' : h.registry.find? id = some s') :
    ∃ s, x.after.registry.find? id = some s ∧ s'.metadata = s.metadata := by
  revert hnobody s'
  refine htrail.since (P := fun newer h =>
    (∀ z ∈ newer, ∀ c, z.outcome = .admitted c → c.session ≠ id) → ∀ {s'},
      h.registry.find? id = some s' →
      ∃ s, x.after.registry.find? id = some s ∧ s'.metadata = s.metadata) ?_ ?_ ?_
  · exact fun _ s' hs' => ⟨s', hs', rfl⟩
  · intro z newer hz ih hnobody s' hs'
    obtain ⟨hnow, hbefore⟩ := List.forall_mem_cons.mp hnobody
    obtain ⟨s, hs, hmeta, -⟩ := ((hz.step_last id).continues hnow).session s' hs'
    obtain ⟨s₀, hs₀, hmeta₀⟩ := ih hbefore hs
    exact ⟨s₀, hs₀, hmeta.trans hmeta₀⟩
  · intro newer h h' hu ih hnobody s' hs'
    exact ih hnobody ((congrArg Place.session (hu.place id)).symm.trans hs')

/-- Nobody else is admitted to a session until the connection to it has ended. -/
theorem alone (htrail : Trail (y :: (newer ++ x :: older)) h) (hout : x.outcome = .admitted c)
    (hopen : c.id ∉ y.before.closed) :
    ∀ z ∈ y :: newer, ∀ c', z.outcome = .admitted c' → c'.session ≠ c.session := by
  intro z hz c' hout' hid
  obtain ⟨after, before, hsplit⟩ := List.append_of_mem hz
  rw [← List.cons_append, hsplit, List.append_assoc, List.cons_append] at htrail
  obtain ⟨g, hact⟩ := Moment.registration hout'
  have hfree := htrail.cut.free_before hact hout'
  have hclosed := htrail.before.closed_of_none (handles_append _ (handles_admitted hout))
    (hid ▸ hfree)
  cases after with
  | nil =>
      obtain ⟨rfl, -⟩ := List.cons.inj hsplit
      exact hopen hclosed
  | cons y' after =>
      obtain ⟨rfl, -⟩ := List.cons.inj hsplit
      exact hopen (htrail.uncons.1.closed_since (htrail.cut.last.closed_after hclosed))

/-- A session is bound to the user agent of whoever was admitted to it, if that matters. -/
theorem bound (htrail : Trail (x :: older) h) {g : Registration} (hact : x.act = .register g)
    (hout : x.outcome = .admitted c) {s : Session} (hs : x.after.registry.find? c.session = some s)
    (hstrict : x.before.registry.config.strictBinding = true) :
    s.metadata.userAgent = g.metadata.userAgent := by
  obtain ⟨s', hplace, -, -, hwhence⟩ := htrail.admitted hact hout
  obtain ⟨s'', hs'', hsame⟩ := Place.answer_session s' _ g x.before.terms
  have hmeta : s.metadata = s'.metadata := by
    rw [Option.some.inj (hs.symm.trans ((congrArg Place.session hplace).trans hs''))]
    rcases hsame with rfl | rfl <;> rfl
  rw [hmeta]
  rcases hwhence with ⟨-, hclaim, s₀, hs₀, rfl⟩ | ⟨-, -, -, rfl⟩
  · obtain ⟨-, -, s₁, hs₁, -, -, hbinding⟩ := Hub.claim?_eq_some x.before hclaim
    obtain rfl := Option.some.inj (hs₀.symm.trans hs₁)
    exact hbinding hstrict
  · rfl

/-- So it is when the connection ends. -/
theorem bound_since (htrail : Trail (y :: older) h) (hx : x ∈ y :: older) {g : Registration}
    (hact : x.act = .register g) (hout : x.outcome = .admitted c) (hends : y.ends c) {s : Session}
    (hs : y.after.registry.find? c.session = some s)
    (hstrict : x.before.registry.config.strictBinding = true) :
    s.metadata.userAgent = g.metadata.userAgent := by
  rcases List.mem_cons.mp hx with rfl | hx
  · exact htrail.bound hact hout hs hstrict
  · obtain ⟨newer, sooner, rfl⟩ := List.append_of_mem hx
    have hlast : Trail ((y :: newer) ++ x :: sooner) y.after := htrail.last
    obtain ⟨s₀, hs₀, hmeta⟩ := hlast.metadata_since (htrail.alone hout hends.1) hs
    rw [hmeta]
    exact hlast.cut.bound hact hout hs₀ hstrict

/-- A session is not given to anybody who does not claim it, while it is kept. -/
theorem unclaimed (htrail : Trail (more ++ (newer ++ y :: older)) h)
    (hc : c ∈ handles ((y :: older).map Moment.occurrence)) (hends : y.ends c)
    (hfree : ∀ z ∈ newer, ∀ c', z.outcome = .admitted c' → c'.session ≠ c.session)
    (hothers : ∀ z ∈ more, ∀ g, z.act = .register g → g.candidate ≠ some c.session)
    (hintime : ∀ z ∈ more, z.time - y.time ≤ y.before.registry.config.ttl) :
    ∀ z ∈ more ++ newer, ∀ c', z.outcome = .admitted c' → c'.session ≠ c.session := by
  induction more generalizing h with
  | nil => exact hfree
  | cons z more ih =>
      obtain ⟨hother, hothers⟩ := List.forall_mem_cons.mp hothers
      obtain ⟨hnow, hintime⟩ := List.forall_mem_cons.mp hintime
      have hbefore : Trail (more ++ (newer ++ y :: older)) z.before := htrail.uncons.1
      have hrest := ih hbefore hothers hintime
      refine List.forall_mem_cons.mpr ⟨?_, hrest⟩
      intro c' hout hid
      obtain ⟨g, hact⟩ := Moment.registration hout
      rw [← List.append_assoc] at hbefore
      obtain ⟨s, -, hretires⟩ := hbefore.retires hc hends hrest
      obtain ⟨-, -, -, -, ⟨-, hclaim, -⟩ | ⟨-, -, hnone, -⟩⟩ := htrail.admitted hact hout
      · exact hother g hact (hid ▸ (Hub.claim?_iff.mp hclaim).1)
      · have hfound := hretires.window.1.mpr (hbefore.terms_since.2.1 ▸ hnow)
        rw [Registry.lookup_snd, ← hid, hnone] at hfound
        cases hfound

/-- A session that was left may be claimed again while it is kept, by whoever it is bound to. -/
theorem claimable_again (htrail : Trail (newer ++ y :: older) h)
    (hc : c ∈ handles ((y :: older).map Moment.occurrence)) (hends : y.ends c)
    (hfree : ∀ z ∈ newer, ∀ c', z.outcome = .admitted c' → c'.session ≠ c.session)
    {claimant : Metadata}
    (hbound : h.registry.config.strictBinding = true → ∀ s,
      y.after.registry.find? c.session = some s → s.metadata.userAgent = claimant.userAgent)
    (hintime : h.now - y.time ≤ h.registry.config.ttl) :
    Table.get? h.clients c.session = none ∧ h.registry.claimable c.session claimant = true := by
  obtain ⟨s, hs, hretires⟩ := htrail.retires hc hends hfree
  refine ⟨hretires.slot_eq_none, (hretires.window.2 _ fun hstrict => ?_).mpr hintime⟩
  exact (hbound hstrict s hs).symm

end Trail

/-! ## Coming back -/

/-- **Who comes back in time gets the session, if it is asked for.** The session has lost its
connection no longer ago than it is kept, nobody else has got it or claims it, and whoever comes
back may be given it. Then it is given back to a caller who waits for the answer exactly if the
caller presents it. -/
theorem Broker.Reachable.given_back_iff {b₀ b b' : Broker} {newer older : List Moment} {y : Moment}
    {c : Client} {arrival : Arrival} {draws : List Draw} {n : Ticket} (hnew : b₀.New)
    (hreach : b₀.Reachable b) (hacc : Accounted (newer ++ y :: older) b₀ b)
    (hc : c ∈ handles ((y :: older).map Moment.occurrence)) (hends : y.ends c)
    (halone : ∀ z ∈ newer, ∀ c', z.outcome = .admitted c' → c'.session ≠ c.session)
    (hunclaimed : ∀ e ∈ b.pending, e.2.candidate ≠ some c.session)
    (hintime : b.now - y.time ≤ b₀.registry.config.ttl)
    (hbound : b₀.registry.config.strictBinding = true → ∀ s,
      y.after.registry.find? c.session = some s → s.metadata.userAgent = arrival.metadata.userAgent)
    (hasked : b.register arrival draws = (b', .ok n)) (hgoes : (b'.await [n]).Goes) :
    (∃ c', (b'.await [n]).answer? n = some (.ok c') ∧ c'.session = c.session ∧
      c'.reconnected = true) ↔ arrival.session = some c.session := by
  obtain ⟨new, htoil⟩ := spells_toil _ _ hgoes
  have htoil : b'.Toil new (b'.await [n]) := htoil
  obtain ⟨more, x, sooner, g, rfl, hact, hmetadata, hcandidate, hsooner, hanswer⟩ :=
    hreach.asks hnew hasked htoil
  have hask := Move.asked (b := b) arrival draws
  rw [hasked] at hask
  obtain ⟨hnow, htimes⟩ := htoil.now
  have hnow' : b'.now = b.now := congrArg Terms.now hask.quiet.terms
  have hfirst := hacc.trail.terms_since.2.1
  have hsettings : y.before.registry.config = b₀.registry.config := hfirst.symm.trans hacc.sessions
  have htrail := ((hacc.quiet hask).stretch htoil.stretch hgoes).trail
  rw [List.append_assoc, List.cons_append] at htrail
  have hnobody := htrail.before.unclaimed hc hends halone
    (fun z hz g' hact' => by
      obtain ⟨e, he, rfl⟩ := hsooner z hz g' hact'
      exact hunclaimed e he)
    (fun z hz => by
      rw [htimes z (List.mem_append_right _ (List.mem_cons_of_mem _ hz)), hnow', hsettings]
      exact hintime)
  -- the session can be had when the caller asks, and still when the loop comes to the registration
  have hclaimable : ∀ {l : List Moment} {h : Hub}, Trail (l ++ y :: older) h → h.now = b.now →
      (∀ z ∈ l, ∀ c', z.outcome = .admitted c' → c'.session ≠ c.session) →
      Table.get? h.clients c.session = none ∧
        h.registry.claimable c.session arrival.metadata = true := by
    intro l h htrail hnow hfree
    have hsame : h.registry.config = b₀.registry.config := htrail.terms_since.2.1.trans hsettings
    refine htrail.claimable_again hc hends hfree ?_ ?_
    · rw [hsame]
      exact hbound
    · rw [hnow, hsame]
      exact hintime
  have hbefore := htrail.before
  rw [← List.append_assoc] at hbefore
  have hatAnswer : x.before.now = b.now :=
    (htimes x (List.mem_append_right _ (List.mem_cons_self ..))).trans hnow'
  obtain ⟨hslot, hgranted⟩ := hclaimable hbefore hatAnswer hnobody
  have hasks := (hclaimable hacc.trail rfl halone).2
  have hout : (x.before.act (.register g)).2 = x.outcome := by rw [Moment.outcome, hact]
  have hfault : (x.before.act (.register g)).2.isFault = false :=
    hout ▸ htrail.cut.uncons.2.2.1
  calc (∃ c', (b'.await [n]).answer? n = some (.ok c') ∧ c'.session = c.session ∧
        c'.reconnected = true)
      ↔ ∃ c', (x.before.act (.register g)).2 = .admitted c' ∧ c'.session = c.session ∧
        c'.reconnected = true := by simp only [hanswer, hout]
    _ ↔ x.before.claim? g = some c.session := hbefore.sound.reclaims_iff hfault
    _ ↔ g.candidate = some c.session := by
        rw [Hub.claim?_iff, hmetadata]
        exact and_iff_left ⟨hslot, hgranted⟩
    _ ↔ arrival.session = some c.session := by
        rw [hcandidate, Option.filter_eq_some_iff]
        exact and_iff_left hasks

end EventRelay
