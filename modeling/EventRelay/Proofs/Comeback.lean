import EventRelay.Proofs.Answers
import EventRelay.Proofs.Isolation

/-!
# Letting go and coming back at once

A page that is loaded again lets its connection go and asks for its session in a new one.
Both are requests, and the loop handles releases first, so when it comes to the registration
the session is free and the loop would give it back. But the caller has looked before: while
the release still waits the session looks held, and the registration asks for a new one.
`Broker.Return.regains_iff` says exactly when the session is given back.
-/

namespace EventRelay

/-! ## A connection is let go -/

/-- Whoever is released by name is disconnected, if not before. -/
theorem Trail.closed_of_release {past : List Moment} {x : Moment} {h : Hub}
    (htrail : Trail (x :: past) h) {c : Client} (hc : c ∈ handles (past.map Moment.occurrence))
    (hact : x.act = .release c.session (some c.id)) : c.id ∈ h.closed := by
  have hlast := htrail.last
  have hplace : x.after.place c.session
      = (x.before.place c.session).letGo (some c.id) x.before.terms := by
    rw [Moment.after, hact]
    exact (Hub.place_release_eq x.before c.session (some c.id)).trans (if_pos rfl)
  rw [htrail.uncons.2.2.2.closed, hlast.sound.closed_iff c (handles_append [x] hc)]
  rintro ⟨slot, hslot, hclient⟩
  have hslot : (x.after.place c.session).slot = some slot := hslot
  rw [hplace, Place.letGo] at hslot
  split at hslot
  · rw [Place.vacate_slot] at hslot
    cases hslot
  · next hother =>
      refine hother ?_
      rw [hslot]
      simp [hclient]

namespace Broker

variable {b b' : Broker} {past new : List Moment} {o : Option Act} {a : Act} {c : Client}

theorem Move.closed (hmove : b.Move o b') (hlife : Life past b) {k : ClientId}
    (hk : k ∈ b.hub.closed) : k ∈ b'.hub.closed := by
  cases o with
  | none => exact hmove.quiet.closed ▸ hk
  | some a => exact (hlife.act hmove).trail.closed_after hk

theorem Asked.releases {arrival : Arrival} {result : Broker × Except Refusal Ticket}
    (hasked : b.Asked arrival result) : result.1.releases = b.releases := by
  cases hasked with
  | refused => rfl
  | queued =>
      unfold enqueue
      split <;> rfl

/-- Only the loop takes up what waits to be let go. -/
theorem Move.mem_releases (hmove : b.Move none b') {r : Release} (hr : r ∈ b.releases) :
    r ∈ b'.releases := by
  cases hmove with
  | asked arrival draws => exact (b.register_cases arrival draws).releases ▸ hr
  | releasing r' =>
      unfold requestRelease
      split
      · exact List.mem_append_left _ hr
      · exact hr
  | sent m =>
      obtain ⟨h, intake, -, -, heq⟩ := b.send_eq m
      exact heq ▸ hr
  | beat =>
      obtain ⟨h, intake, -, -, heq⟩ := b.runHeartbeat_eq
      exact heq ▸ hr
  | joined =>
      obtain ⟨h, -, -, heq⟩ := b.joinTasks_eq
      exact heq ▸ hr
  | reported => exact hr
  | abandoned => exact hr
  | numbered => exact hr
  | letIn => exact hr
  | set => exact hr

/-- A request to let somebody go waits until it is granted. -/
theorem Move.released (hmove : b.Move o b') (hlife : Life past b)
    (hc : c ∈ handles (past.map Moment.occurrence))
    (hwaits : ⟨c.session, some c.id⟩ ∈ b.releases ∨ c.id ∈ b.hub.closed) :
    ⟨c.session, some c.id⟩ ∈ b'.releases ∨ c.id ∈ b'.hub.closed := by
  rcases hwaits with hwaits | hclosed
  swap
  · exact Or.inr (hmove.closed hlife hclosed)
  cases o with
  | none => exact Or.inl (hmove.mem_releases hwaits)
  | some a =>
      have hlife' := hlife.act hmove
      cases hmove with
      | turned hbusy hturn =>
          generalize b.turn = b' at hturn hlife' ⊢
          cases hturn with
          | @released r releases hreleases =>
              rw [hreleases] at hwaits
              rcases List.mem_cons.mp hwaits with rfl | hwaits
              · exact Or.inr (hlife'.trail.closed_of_release hc rfl)
              · exact Or.inl hwaits
          | answered => exact Or.inl hwaits
          | dispatched => exact Or.inl hwaits
          | reaped => exact Or.inl hwaits
      | stopped hruns hfirst hclock =>
          obtain ⟨h, hu, -, heq⟩ := stop_eq hruns hfirst hclock
          refine Or.inr (hlife'.trail.closed_of_none (Trail.handles_append [⟨.stop, b.hub⟩] hc) ?_)
          rw [heq]
          show Table.get? h.clients c.session = none
          rw [hu.clients]
          rfl
      | read c' =>
          obtain ⟨h, -, heq⟩ := b.read_eq c'
          exact Or.inl (heq ▸ hwaits)
      | looked => exact Or.inl hwaits
      | left => exact Or.inl hwaits
      | swept => exact Or.inl hwaits
      | waited => exact Or.inl hwaits

theorem Later.released (hlater : b.Later new b') (hlife : Life past b)
    (hc : c ∈ handles (past.map Moment.occurrence))
    (hwaits : ⟨c.session, some c.id⟩ ∈ b.releases ∨ c.id ∈ b.hub.closed) :
    ⟨c.session, some c.id⟩ ∈ b'.releases ∨ c.id ∈ b'.hub.closed := by
  induction hlater with
  | refl => exact hwaits
  | quiet hlater hmove ih =>
      exact hmove.released (hlife.later hlater) (Trail.handles_append _ hc) ih
  | act hlater hmove ih => exact hmove.released (hlife.later hlater) (Trail.handles_append _ hc) ih

/-- A connection that ended in a part of a life ended at some moment of it. -/
theorem Later.ending (hlater : b.Later new b') (hlife : Life past b) (hopen : c.id ∉ b.hub.closed)
    (hclosed : c.id ∈ b'.hub.closed) : ∃ newer y older, new = newer ++ y :: older ∧ y.ends c := by
  induction hlater with
  | refl => exact absurd hclosed hopen
  | quiet hlater hmove ih => exact ih (hmove.quiet.closed ▸ hclosed)
  | @act new b' b'' a hlater hmove ih =>
      by_cases hbefore : c.id ∈ b'.hub.closed
      · obtain ⟨newer, y, older, rfl, hends⟩ := ih hbefore
        exact ⟨⟨a, b'.hub⟩ :: newer, y, older, rfl, hends⟩
      · have hu := (hmove.act (hlife.later hlater).not_failed).1
        exact ⟨[], ⟨a, b'.hub⟩, new, rfl, hbefore, hu.closed ▸ hclosed⟩

/-- A session that nobody is admitted to bears the metadata that it bore. -/
theorem Later.metadata (hlater : b.Later new b') (hlife : Life past b) {id : SessionId}
    (hnobody : ∀ z ∈ new, ∀ c, z.outcome = .admitted c → c.session ≠ id) {s' : Session}
    (hs' : b'.registry.find? id = some s') :
    ∃ s, b.registry.find? id = some s ∧ s'.metadata = s.metadata := by
  induction hlater generalizing s' with
  | refl => exact ⟨s', hs', rfl⟩
  | quiet hlater hmove ih =>
      exact ih hnobody ((congrArg Place.session (hmove.quiet.place id)).symm.trans hs')
  | @act new b' b'' a hlater hmove ih =>
      obtain ⟨hnow, hbefore⟩ := List.forall_mem_cons.mp hnobody
      have htrail := ((hlife.later hlater).act hmove).trail
      obtain ⟨s, hs, hmeta, -⟩ := ((htrail.step_last id).continues hnow).session s'
        ((congrArg Place.session (htrail.uncons.2.2.2.place id)).symm.trans hs')
      obtain ⟨s₀, hs₀, hmeta₀⟩ := ih hbefore hs
      exact ⟨s₀, hs₀, hmeta.trans hmeta₀⟩

/-- A session whose connection has ended in time may be claimed, by the user agent that made
it if that matters. -/
theorem Later.claimable (hlater : b.Later new b') (hlife : Life past b)
    (hc : c ∈ handles (past.map Moment.occurrence)) (hopen : c.id ∉ b.hub.closed)
    (hclosed : c.id ∈ b'.hub.closed)
    (hnobody : ∀ z ∈ new, ∀ c', z.outcome = .admitted c' → c'.session ≠ c.session)
    (hintime : ∀ y ∈ new, y.ends c → b'.now - y.time ≤ b'.registry.config.ttl) {m : Metadata}
    (hbound : b.registry.config.strictBinding = true → ∀ s, b.registry.find? c.session = some s →
      s.metadata.userAgent = m.userAgent) :
    Table.get? b'.hub.clients c.session = none ∧ b'.registry.claimable c.session m = true := by
  obtain ⟨newer, y, older, rfl, hends⟩ := hlater.ending hlife hopen hclosed
  have htrail := (hlife.later hlater).trail
  rw [List.append_assoc, List.cons_append] at htrail
  have hc' : c ∈ handles ((y :: (older ++ past)).map Moment.occurrence) :=
    Trail.handles_append (y :: older) hc
  obtain ⟨s, -, hretires⟩ := htrail.retires hc' hends
    fun z hz => hnobody z (List.mem_append_left _ hz)
  obtain ⟨hfound, hclaimable⟩ := hretires.window
  have hlives := hintime y (List.mem_append_right _ (List.mem_cons_self ..)) hends
  refine ⟨hretires.slot_eq_none, (hclaimable m ?_).mpr hlives⟩
  intro hstrict
  have hkept := hfound.mpr hlives
  rw [Registry.lookup_snd, Option.isSome_filter, Option.any_eq_true] at hkept
  obtain ⟨s₁, hs₁, -⟩ := hkept
  obtain ⟨s₀, hs₀, hmeta⟩ := hlater.metadata hlife hnobody hs₁
  rw [← (hretires.session hs₁).2.2, hmeta]
  have hsame := (hlater.terms hlife).2.1
  exact (hbound (hsame ▸ hstrict) s₀ hs₀).symm

/-- A connection is let go, and the session is asked for again by a registration that the
loop takes up now. In between nobody else is admitted to the session, and it does not expire. -/
structure Return (past mid new : List Moment) (before asking waiting answering : Broker)
    (c : Client) (arrival : Arrival) (n : Ticket) (g : Registration) : Prop where
  life : Life past before
  runs : before.isRunning = true
  held : c ∈ handles (past.map Moment.occurrence)
  connected : c.id ∉ before.hub.closed
  released : (before.release c.session c.id).Later mid asking
  presents : arrival.session = some c.session
  asked : ∃ draws, asking.register arrival draws = (waiting, .ok n)
  waits : waiting.Later new answering
  free : answering.releases = []
  first : ∃ rest, answering.registrations = (n, g) :: rest
  goes : answering.turn.Goes
  bound : before.registry.config.strictBinding = true → ∀ s,
    before.registry.find? c.session = some s → s.metadata.userAgent = arrival.metadata.userAgent
  alone : ∀ z ∈ new ++ mid, ∀ c', z.outcome = .admitted c' → c'.session ≠ c.session
  inTime : ∀ y ∈ new ++ mid, y.ends c → answering.now - y.time ≤ before.registry.config.ttl

namespace Return

variable {past mid new : List Moment} {before asking waiting answering : Broker} {c : Client}
  {arrival : Arrival} {n : Ticket} {g : Registration}

theorem release_eq (hr : Return past mid new before asking waiting answering c arrival n g) :
    before.release c.session c.id
      = { before with releases := before.releases ++ [⟨c.session, some c.id⟩] } :=
  if_pos hr.runs

theorem life_release (hr : Return past mid new before asking waiting answering c arrival n g) :
    Life past (before.release c.session c.id) :=
  hr.life.quiet (.releasing ⟨c.session, some c.id⟩)

theorem onward (hr : Return past mid new before asking waiting answering c arrival n g) :
    asking.Later new answering := by
  obtain ⟨draws, hasked⟩ := hr.asked
  have hask := Move.asked (b := asking) arrival draws
  rw [hasked] at hask
  simpa using ((Later.refl (b := asking)).quiet hask).trans hr.waits

/-- When the loop comes to the registration it has let the client go. -/
theorem disconnected (hr : Return past mid new before asking waiting answering c arrival n g) :
    c.id ∈ answering.hub.closed := by
  have hwaits : ⟨c.session, some c.id⟩ ∈ (before.release c.session c.id).releases := by
    rw [hr.release_eq]
    exact List.mem_append_right _ (List.mem_singleton_self _)
  have hgranted := (hr.released.trans hr.onward).released hr.life_release hr.held (Or.inl hwaits)
  refine hgranted.resolve_left ?_
  rw [hr.free]
  exact List.not_mem_nil

/-- Then nothing stands against giving the session back. -/
theorem granted (hr : Return past mid new before asking waiting answering c arrival n g) :
    Table.get? answering.hub.clients c.session = none ∧
      answering.registry.claimable c.session arrival.metadata = true := by
  have hway := hr.released.trans hr.onward
  have hconfig := (hway.terms hr.life_release).2.1
  have heq := hr.release_eq
  refine hway.claimable hr.life_release hr.held ?_ hr.disconnected hr.alone ?_ ?_
  · rw [heq]
    exact hr.connected
  · rw [hconfig, heq]
    exact hr.inTime
  · rw [heq]
    exact hr.bound

/-- What the caller could claim is what the loop is asked for. -/
theorem asks (hr : Return past mid new before asking waiting answering c arrival n g) :
    g.metadata = arrival.metadata ∧
      g.candidate = arrival.session.filter fun id =>
        asking.registry.claimable id arrival.metadata := by
  obtain ⟨draws, hasked⟩ := hr.asked
  obtain ⟨rest, hfirst⟩ := hr.first
  obtain ⟨-, hn, h, g₀, rfl, hmetadata, hcandidate⟩ := register_queued hasked
  refine And.symm ((hr.waits.pending ?_ ?_).2 (n, g) ?_ rfl)
  · rw [hn, enqueue_serial]
    exact Nat.lt_succ_self _
  · intro e he hen
    rcases mem_pending_enqueue.mp he with rfl | he
    · exact ⟨hcandidate, hmetadata⟩
    · have hlt := (hr.life_release.later hr.released).ticket_lt he
      exact absurd (hen.trans hn) (Nat.ne_of_lt hlt)
  · unfold Broker.pending
    rw [hfirst]
    exact List.mem_cons_self ..

theorem answered (hr : Return past mid new before asking waiting answering c arrival n g) :
    (waiting.settle.answer? n).isSome = true := by
  obtain ⟨draws, hasked⟩ := hr.asked
  obtain ⟨hruns, -, h, g₀, rfl, -⟩ := register_queued hasked
  refine settle_answers ?_ (List.mem_append_left _ (List.mem_map.mpr ⟨(n, g₀), ?_, rfl⟩))
  · rw [isRunning, enqueue_phase]
    exact hruns
  · exact mem_pending_enqueue.mpr (Or.inl rfl)

end Return

/-- A new broker with the usual settings. -/
def usual : Broker where
  hub := ({ config := {}, registry := .start {} 0 } : Hub).note (.brokerStarted 64 1024 25000 5000)
  heartbeat := Ticker.start 25000 0

/-- The broker once a page was opened. -/
def usual.opened : Broker := (usual.register {} [.ok "S1"]).1.turn

/-- The broker once the page's connection is dropped. -/
def usual.dropped : Broker := opened.release "S1" ⟨1⟩

theorem turn_of_release {r : Release} {rest : List Release} (hwaits : b.releases = r :: rest)
    (hruns : b.turn.phase = .running) : b.Turn (.release r.session r.client) b.turn := by
  obtain ⟨a, hturn⟩ := turn_of_running hruns
  generalize b.turn = b' at hturn ⊢
  cases hturn with
  | released hwaits' =>
      obtain ⟨rfl, rfl⟩ := List.cons.inj (hwaits.symm.trans hwaits')
      exact .released hwaits
  | answered hfree => cases hfree.symm.trans hwaits
  | dispatched hfree => cases hfree.symm.trans hwaits
  | reaped hfree => cases (workload_eq_zero.mp hfree).1.symm.trans hwaits

end Broker

end EventRelay
