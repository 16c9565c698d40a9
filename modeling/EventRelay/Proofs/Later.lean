import EventRelay.Proofs.Smooth

/-!
# Parts of a life

What comes later in a broker's life, from some point on. What can be said of a later point
from an earlier one is proved by induction on it: the settings are the same and the clock
has not gone back (`Later.terms`), and a registration that waits asks for what it has asked
for (`Later.pending`).
-/

namespace EventRelay

namespace Broker

variable {b b' b'' : Broker} {past new new' : List Moment} {o : Option Act} {a : Act}

/-- A part of a life, with its acts. -/
inductive Later (b : Broker) : List Moment → Broker → Prop
  | refl : Later b [] b
  | quiet {new : List Moment} {b' b'' : Broker} (hlater : Later b new b')
      (hmove : b'.Move none b'') :
      Later b new b''
  | act {new : List Moment} {b' b'' : Broker} {a : Act} (hlater : Later b new b')
      (hmove : b'.Move (some a) b'') : Later b (⟨a, b'.hub⟩ :: new) b''

theorem Later.trans (hlater : b.Later new b') (hlater' : b'.Later new' b'') :
    b.Later (new' ++ new) b'' := by
  induction hlater' with
  | refl => exact hlater
  | quiet _ hmove ih => exact ih.quiet hmove
  | act _ hmove ih => exact ih.act hmove

theorem Onward.later (honward : b.Onward new b') : b.Later new b' := by
  induction honward with
  | refl => exact .refl
  | quiet _ hmove ih => exact ih.quiet hmove
  | act _ hmove _ ih => exact ih.act hmove

theorem Life.later (hlife : Life past b) (hlater : b.Later new b') : Life (new ++ past) b' := by
  induction hlater with
  | refl => exact hlife
  | quiet _ hmove ih => exact ih.quiet hmove
  | act _ hmove ih => exact ih.act hmove

theorem Life.of_start {config : Config} {sessions : Registry.Config} {now : Nat}
    (hstart : Broker.start config (.start sessions now) = .ok b) : Life [] b := by
  refine .start rfl ?_ hstart
  rintro ticker ⟨⟩
  exact Nat.le_max_right _ _

theorem turn_of_running (hruns : b.turn.phase = .running) : ∃ a, b.Turn a b.turn := by
  refine b.turn_cases.resolve_left ?_
  rintro ⟨⟨f, hfailed⟩, -⟩
  cases hruns.symm.trans hfailed

/-- The settings never change, and the clock never goes back. -/
theorem Later.terms (hlater : b.Later new b') (hlife : Life past b) :
    b'.config = b.config ∧ b'.registry.config = b.registry.config ∧ b.now ≤ b'.now := by
  induction hlater with
  | refl => exact ⟨rfl, rfl, Nat.le_refl _⟩
  | @quiet new b' b'' hlater hmove ih =>
      have hterms := hmove.quiet.terms
      obtain ⟨hconfig, hsessions, hnow⟩ := ih
      exact ⟨(congrArg Terms.config hterms).trans hconfig,
        (congrArg Terms.sessions hterms).trans hsessions,
        hnow.trans (Nat.le_of_eq (congrArg Terms.now hterms).symm)⟩
  | @act new b' b'' a hlater hmove ih =>
      obtain ⟨hconfig, hsessions, hnow⟩ := ih
      have htrail : Trail ([] ++ ⟨a, b'.hub⟩ :: (new ++ past)) b''.hub :=
        ((hlife.later hlater).act hmove).trail
      obtain ⟨hconfig', hsessions', hnow'⟩ := htrail.terms_since
      exact ⟨hconfig'.trans hconfig, hsessions'.trans hsessions, hnow.trans hnow'⟩

/-! ## What waits -/

/-- The registrations that wait, in their queue or in the lobby. -/
def pending (b : Broker) : List (Ticket × Registration) := b.registrations ++ b.lobby

theorem mem_pending_enqueue {n : Ticket} {g : Registration} {e : Ticket × Registration} :
    e ∈ (b.enqueue n g).pending ↔ e = (n, g) ∨ e ∈ b.pending := by
  unfold pending enqueue
  split
  · simp only [List.mem_append, List.mem_singleton]
    tauto
  · simp only [List.mem_append, List.mem_singleton]
    tauto

theorem length_pending_enqueue (b : Broker) (n : Ticket) (g : Registration) :
    (b.enqueue n g).pending.length = b.pending.length + 1 := by
  unfold pending enqueue
  split
  · simp only [List.length_append, List.length_singleton]
    omega
  · simp only [List.length_append, List.length_singleton, Nat.add_assoc]

theorem letIn_pending (b : Broker) : b.letIn.pending = b.pending := by
  unfold pending letIn
  rw [List.append_assoc, List.take_append_drop]

theorem Asked.pending {arrival : Arrival} {result : Broker × Except Refusal Ticket}
    (hasked : b.Asked arrival result) {e : Ticket × Registration} (he : e ∈ result.1.pending) :
    e ∈ b.pending ∨ e.1 = b.serial ∧ result.1.serial = b.serial + 1 := by
  cases hasked with
  | refused => exact Or.inl he
  | @queued h g =>
      rcases mem_pending_enqueue.mp he with rfl | he
      · refine Or.inr ⟨rfl, ?_⟩
        unfold enqueue
        split <;> rfl
      · exact Or.inl he

theorem Turn.pending (hturn : b.Turn a b') {e : Ticket × Registration} (he : e ∈ b'.pending) :
    e ∈ b.pending := by
  cases hturn with
  | answered hfree hwaits =>
      unfold Broker.pending
      rw [hwaits]
      exact List.mem_cons_of_mem _ he
  | released => exact he
  | dispatched => exact he
  | reaped => exact he

/-- Who waits has waited, and for the same, or is new. -/
theorem Move.pending (hmove : b.Move o b') {e : Ticket × Registration} (he : e ∈ b'.pending) :
    (∃ e₀ ∈ b.pending, e₀.1 = e.1 ∧ e₀.2.candidate = e.2.candidate ∧ e₀.2.metadata = e.2.metadata) ∨
      e.1 = b.serial ∧ b'.serial = b.serial + 1 := by
  have hsame : e ∈ b.pending → (∃ e₀ ∈ b.pending, e₀.1 = e.1 ∧ e₀.2.candidate = e.2.candidate ∧
      e₀.2.metadata = e.2.metadata) ∨ e.1 = b.serial ∧ b'.serial = b.serial + 1 :=
    fun he => Or.inl ⟨e, he, rfl, rfl, rfl⟩
  cases hmove with
  | asked arrival draws =>
      rcases (b.register_cases arrival draws).pending he with he | hnew
      · exact hsame he
      · exact Or.inr hnew
  | abandoned ticket =>
      rcases List.mem_append.mp he with he | he
      · obtain ⟨⟨n, g⟩, hmem, rfl⟩ := List.mem_map.mp he
        refine Or.inl ⟨(n, g), List.mem_append_left _ hmem, rfl, ?_⟩
        dsimp only
        split <;> exact ⟨rfl, rfl⟩
      · exact hsame (List.mem_append_right _ (List.mem_filter.mp he).1)
  | releasing r =>
      obtain ⟨h, releases, -, -, heq⟩ := b.requestRelease_eq r
      rw [heq] at he
      exact hsame he
  | sent m =>
      obtain ⟨h, intake, -, -, heq⟩ := b.send_eq m
      rw [heq] at he
      exact hsame he
  | beat =>
      obtain ⟨h, intake, -, -, heq⟩ := b.runHeartbeat_eq
      rw [heq] at he
      exact hsame he
  | read c =>
      obtain ⟨h, -, heq⟩ := b.read_eq c
      rw [heq] at he
      exact hsame he
  | turned hbusy hturn => exact hsame (hturn.pending he)
  | letIn =>
      rw [letIn_pending] at he
      exact hsame he
  | stopped hruns hfirst hclock =>
      obtain ⟨h, -, -, heq⟩ := stop_eq hruns hfirst hclock
      rw [heq] at he
      cases he
  | joined =>
      obtain ⟨h, -, -, heq⟩ := b.joinTasks_eq
      rw [heq] at he
      exact hsame he
  | reported => exact hsame he
  | numbered => exact hsame he
  | looked => exact hsame he
  | left => exact hsame he
  | set => exact hsame he
  | swept => exact hsame he
  | waited => exact hsame he

theorem Move.serial_le (hmove : b.Move o b') : b.serial ≤ b'.serial := by
  rcases hmove.callers with ⟨-, hle⟩ | ⟨-, hserial⟩
  · exact hle
  · exact hserial ▸ Nat.le_succ _

/-- No ticket is given out that has been given out. -/
theorem Life.ticket_lt (hlife : Life past b) {e : Ticket × Registration} (he : e ∈ b.pending) :
    e.1 < b.serial := by
  have hmoved : ∀ {b b' : Broker} {o : Option Act}, b.Move o b' →
      (∀ e ∈ b.pending, e.1 < b.serial) →
      ∀ e ∈ b'.pending, e.1 < b'.serial := by
    intro b b' o hmove ih e he
    rcases hmove.pending he with ⟨e₀, he₀, hn, -⟩ | ⟨hn, hserial⟩
    · exact hn ▸ Nat.lt_of_lt_of_le (ih e₀ he₀) hmove.serial_le
    · rw [hn, hserial]
      exact Nat.lt_succ_self _
  induction hlife generalizing e with
  | start hempty htimer hstart =>
      rw [start_eq hstart] at he
      cases he
  | quiet hlife hmove ih => exact hmoved hmove (fun _ => ih) e he
  | act hlife hmove ih => exact hmoved hmove (fun _ => ih) e he

/-- What a ticket asks for stays what it was. -/
theorem Later.pending {n : Ticket} {candidate : Option SessionId} {m : Metadata}
    (hlater : b.Later new b') (hn : n < b.serial)
    (hasks : ∀ e ∈ b.pending, e.1 = n → e.2.candidate = candidate ∧ e.2.metadata = m) :
    n < b'.serial ∧ ∀ e ∈ b'.pending, e.1 = n → e.2.candidate = candidate ∧ e.2.metadata = m := by
  have hmoved : ∀ {b b' : Broker} {o : Option Act}, b.Move o b' →
      (n < b.serial ∧ ∀ e ∈ b.pending, e.1 = n → e.2.candidate = candidate ∧ e.2.metadata = m) →
      n < b'.serial ∧ ∀ e ∈ b'.pending, e.1 = n → e.2.candidate = candidate ∧ e.2.metadata = m := by
    rintro b b' o hmove ⟨hn, ih⟩
    refine ⟨Nat.lt_of_lt_of_le hn hmove.serial_le, ?_⟩
    intro e he hen
    rcases hmove.pending he with ⟨e₀, he₀, hn₀, hcandidate, hmetadata⟩ | ⟨hnew, -⟩
    · exact hcandidate ▸ hmetadata ▸ ih e₀ he₀ (hn₀.trans hen)
    · exact absurd (hen.symm.trans hnew) (Nat.ne_of_lt hn)
  induction hlater with
  | refl => exact ⟨hn, hasks⟩
  | quiet hlater hmove ih => exact hmoved hmove ih
  | act hlater hmove ih => exact hmoved hmove ih

end Broker

end EventRelay
