import EventRelay.Proofs.Endings
import EventRelay.Proofs.Loop

/-!
# When the loop wakes for slow clients

The loop sleeps until the earliest deadline of a client whose stall clock runs, and looks at
the clients then. A client that has read since leaves a mark behind, for which the loop wakes
too early: the look takes such a mark away, so that the same one does not wake it again.

A mark on a queue with room is an old one (`Hub.Step.old_mark`), so a new mark is the trace of
a queue that was filled (`Trail.mark_or_fills`). From a look at the clients on, whatever is due
at the same instant was therefore filled after it (`Trail.due_since_reap`).
-/

namespace EventRelay

/-! ## Marks -/

namespace Slot

variable {s : Slot} {patience now t : Nat}

/-- A look at a client starts no stall clock. -/
theorem check_stalledSince (hmarked : s.Marked)
    (hmark : (s.check patience now).1.stalledSince = some t) :
    s.stalledSince = some t := by
  unfold check at hmark
  split at hmark
  · exact hmark
  · split at hmark
    · next hfull =>
        rw [stall_eq hmarked hfull] at hmark
        exact hmark
    · cases hmark

/-- An event that leaves a mark fills the queue. -/
theorem taking_isFull {e : Event} (hmark : (s.taking [e] now).stalledSince = some t) :
    (s.taking [e] now).channel.isFull = true := by
  simp only [taking, List.cons_ne_nil, if_false] at hmark
  split at hmark
  · next hle => exact isFull_iff.mpr (by simpa [taking] using hle)
  · cases hmark

end Slot

namespace Place

variable {keeps : Session → Session → Prop} {e : Event} {terms : Terms} {p q : Place} {c : ClientId}
  {slot : Slot} {t : Nat}

/-- Deliveries that leave room leave no mark. -/
theorem Course.old_mark {fs : List Fate} (hc : Course keeps e terms fs p q)
    (hslot : q.slot = some slot)
    (hroom : slot.channel.isFull = false) (hmark : slot.stalledSince = some t)
    (hfits : ∀ slot, p.slot = some slot → slot.Fits ∧ slot.Marked) :
    ∃ slot₀, p.slot = some slot₀ ∧ slot₀.stalledSince = some t := by
  induction hc with
  | nil p => exact ⟨slot, hslot, hmark⟩
  | @cons f fs p q r hmeets hcourse ih =>
      cases hmeets with
      | kept | handedOver =>
          obtain ⟨slot₀, hslot₀, -⟩ := ih hslot nofun
          cases hslot₀
      | @delivered s slot₀ hactive hreads hroom₀ =>
          obtain ⟨hfit, hmarked⟩ := hfits slot₀ rfl
          have hb := Slot.becomes_taking hfit hroom₀ e terms.now
          have hfits' : ∀ slot₁, some (slot₀.taking [e] terms.now) = some slot₁ →
              slot₁.Fits ∧ slot₁.Marked := by
            rintro slot₁ ⟨⟩
            exact ⟨hb.fits, hb.marked hmarked⟩
          obtain ⟨slot₁, hslot₁, hmark₁⟩ := ih hslot hfits'
          obtain rfl := Option.some.inj hslot₁
          obtain ⟨slot₂, hslot₂, hb'⟩ := hcourse.becomes hslot hfits'
          obtain rfl := Option.some.inj hslot₂
          cases hroom.symm.trans (hb'.stays (Slot.taking_isFull hmark₁) id).2.1
      | @dropped s slot₀ hactive hreads hfull hearly =>
          rw [Slot.stall_eq (hfits slot₀ rfl).2 hfull] at ih
          exact ih hslot hfits

theorem read_mark (hslot : (p.read c).slot = some slot) (hmark : slot.stalledSince = some t) :
    ∃ slot₀, p.slot = some slot₀ ∧ slot₀.stalledSince = some t := by
  unfold read at hslot
  split at hslot
  · exact ⟨slot, hslot, hmark⟩
  · next slot₀ hslot₀ =>
      split at hslot
      · exact ⟨slot, hslot, hmark⟩
      · obtain rfl := Option.some.inj hslot
        exact ⟨slot₀, (Option.filter_eq_some_iff.mp hslot₀).1, hmark⟩

theorem leave_mark (hslot : (p.leave c).slot = some slot) (hmark : slot.stalledSince = some t) :
    ∃ slot₀, p.slot = some slot₀ ∧ slot₀.stalledSince = some t := by
  unfold leave at hslot
  split at hslot
  · exact ⟨slot, hslot, hmark⟩
  · next slot₀ hslot₀ =>
      obtain rfl := Option.some.inj hslot
      exact ⟨slot₀, (Option.filter_eq_some_iff.mp hslot₀).1, hmark⟩

end Place

namespace Hub

variable {h : Hub} {id : SessionId} {a : Act} {o : Outcome} {q : Place} {slot : Slot} {t : Nat}
  {hs : List Client}

/-- A client whose queue has room when it is admitted has no mark. -/
theorem opening_mark {g : Registration} {reconnected : Bool} {replay : List Event}
    (hmark : (h.opening g id reconnected replay).stalledSince = some t) :
    (h.opening g id reconnected replay).channel.isFull = true := by
  rw [opening] at hmark
  split at hmark
  · next hzero =>
      refine Slot.isFull_iff.mpr ?_
      show h.config.queueCapacity + replay.length + 1 ≤ replay.length + 1
      omega
  · cases hmark

/-- A mark on a queue with room was there before the act. -/
theorem Step.old_mark (hstep : h.Step id a o q) (hslot : q.slot = some slot)
    (hroom : slot.channel.isFull = false) (hmark : slot.stalledSince = some t)
    (hfits : ∀ slot, Table.get? h.clients id = some slot → slot.Fits ∧ slot.Marked) :
    ∃ slot₀, Table.get? h.clients id = some slot₀ ∧ slot₀.stalledSince = some t := by
  have hadmitted : ∀ {g : Registration} {s reconnected replay},
      (Place.answer ⟨some s, some (h.opening g id reconnected replay)⟩ g h.terms).slot
        ≠ some slot := by
    intro g s reconnected replay hanswer
    obtain rfl := Option.some.inj (Place.answer_slot hanswer)
    cases hroom.symm.trans (opening_mark hmark)
  cases hstep with
  | aside => exact ⟨slot, hslot, hmark⟩
  | reclaimed => exact absurd hslot hadmitted
  | created => exact absurd hslot hadmitted
  | dispatched hs hlen hcourse => exact hcourse.old_mark hslot hroom hmark hfits
  | inspected =>
      obtain ⟨slot₀, hslot₀, -, rfl⟩ := Place.inspect_slot hslot
      exact ⟨slot₀, hslot₀, Slot.check_stalledSince (hfits slot₀ hslot₀).2 hmark⟩
  | read => exact Place.read_mark hslot hmark
  | left => exact Place.leave_mark hslot hmark
  | released | stopped =>
      rw [Place.vacate_slot] at hslot
      cases hslot
  | swept | looked => exact ⟨slot, hslot, hmark⟩

/-- Whoever is left after a look at the clients was there before, and has been looked at. -/
theorem Sound.reap_slot (hS : h.Sound hs) (hslot : Table.get? h.reap.clients id = some slot) :
    ∃ slot₀, Table.get? h.clients id = some slot₀ ∧
      (slot₀.check h.config.patience h.now).2 = false ∧
      slot = (slot₀.check h.config.patience h.now).1 := by
  have hplace := place_reap h hS.clients_nodup id
  exact Place.inspect_slot ((congrArg Place.slot hplace).symm.trans hslot)

/-- A look at the clients takes away exactly those who are lost. -/
theorem Sound.reap_slot_none (hS : h.Sound hs) (hslot : Table.get? h.clients id = some slot) :
    Table.get? h.reap.clients id = none ↔ slot.Lost h.config.patience h.now := by
  have hplace := place_reap h hS.clients_nodup id
  exact (congrArg (·.slot = none) hplace).to_iff.trans (Place.inspect_slot_none hslot)

end Hub

theorem Broker.turn_of_free {b : Broker} (hfree : b.workload = 0)
    (hclock : b.hub.deadlineOverflows = false) :
    b.turn = { b with hub := b.hub.reap }.setAlarm .stall := by
  rw [turn, if_neg (by simp [hclock]), if_pos hfree]

/-! ## Every run -/

namespace Trail

variable {past later earlier : List Moment} {x y : Moment} {h : Hub} {id : SessionId} {slot : Slot}
  {t : Nat}

/-- A mark was there before, or the queue was filled just now. -/
theorem mark_or_fills (htrail : Trail (x :: past) x.after)
    (hslot : Table.get? x.after.clients id = some slot) (hmark : slot.stalledSince = some t) :
    (∃ slot₀, Table.get? x.before.clients id = some slot₀ ∧ slot₀.stalledSince = some t) ∨
      t = x.time ∧ x.fills id slot.client slot.channel.queue := by
  have hbefore := htrail.uncons.1
  have hstep := htrail.step_last id
  cases hfull : slot.channel.isFull with
  | false => exact Or.inl (hstep.old_mark hslot hfull hmark fun _ => hbefore.marked)
  | true =>
      have hfilled : (∀ queue', ¬ x.before.Jammed id slot.client queue') →
          t = x.time ∧ x.fills id slot.client slot.channel.queue := by
        intro hroom
        have hfills : x.fills id slot.client slot.channel.queue :=
          ⟨hroom, slot, hslot, rfl, rfl, hfull⟩
        exact ⟨Option.some.inj (hmark.symm.trans (htrail.mark_of_fills hfills hslot)), hfills⟩
      rcases hstep.slot hbefore.sound hslot (fun _ => hbefore.marked) with
        ⟨-, hfree, -⟩ | ⟨slot₀, hslot₀, hb⟩
      · refine Or.inr (hfilled ?_)
        rintro queue' ⟨slot', hslot', -⟩
        cases hfree.symm.trans hslot'
      · cases hfull₀ : slot₀.channel.isFull with
        | false =>
            refine Or.inr (hfilled ?_)
            rintro queue' ⟨slot', hslot', -, -, hfull'⟩
            obtain rfl := Option.some.inj (hslot₀.symm.trans hslot')
            cases hfull₀.symm.trans hfull'
        | true =>
            have hunread : ¬ x.act.isReadBy id slot₀.client := fun hread => by
              cases hfull.symm.trans (hb.drains hfull₀ hread)
            exact Or.inl ⟨slot₀, hslot₀, (hb.stays hfull₀ hunread).2.2 ▸ hmark⟩

/-- Whoever is left after a look at the clients has time left, unless its queue was filled
since. -/
theorem due_since_reap (htrail : Trail (later ++ y :: earlier) h) (hreap : y.act = .reap)
    (hslot : Table.get? h.clients id = some slot) (hmark : slot.stalledSince = some t) :
    y.time < t + h.config.patience ∨ ∃ z ∈ later, t = z.time ∧ ∃ k queue, z.fills id k queue := by
  rw [htrail.terms_since.1]
  refine htrail.since (P := fun later h => ∀ slot, Table.get? h.clients id = some slot →
    slot.stalledSince = some t → y.time < t + y.before.config.patience ∨
      ∃ z ∈ later, t = z.time ∧ ∃ k queue, z.fills id k queue) ?_ ?_ ?_ slot hslot hmark
  · intro slot hslot hmark
    have hafter : y.after = y.before.reap := by rw [Moment.after, hreap]; rfl
    rw [hafter] at hslot
    obtain ⟨slot₀, -, hspared, rfl⟩ := htrail.before.sound.reap_slot hslot
    exact Or.inl (Slot.check_deadline hspared hmark)
  · intro z later hz ih slot hslot hmark
    rcases hz.mark_or_fills hslot hmark with ⟨slot₀, hslot₀, hmark₀⟩ | ⟨htime, hfills⟩
    · rcases ih slot₀ hslot₀ hmark₀ with hleft | ⟨z', hz', hsince⟩
      · exact Or.inl hleft
      · exact Or.inr ⟨z', List.mem_cons_of_mem _ hz', hsince⟩
    · exact Or.inr ⟨z, List.mem_cons_self .., htime, _, _, hfills⟩
  · intro later h h' hu ih slot hslot hmark
    exact ih slot (hu.clients ▸ hslot) hmark

/-- A look at the clients starts no stall clock. -/
theorem reap_deadline (htrail : Trail past h) {entry : SessionId × Slot}
    (hentry : entry ∈ h.reap.clients) (hdeadline : entry.2.deadline h.config.patience = some t) :
    h.now < t ∧ ∃ entry₀ ∈ h.clients, entry₀.2.deadline h.config.patience = some t := by
  have hS := htrail.sound
  have hafter : (h.act .reap).1 = h.reap := rfl
  have hnd := (hS.act .reap trivial rfl).clients_nodup
  rw [hafter] at hnd
  obtain ⟨slot₀, hslot₀, hspared, hslot⟩ := hS.reap_slot (Table.get?_of_mem hnd hentry)
  obtain ⟨since, hmark, rfl⟩ := Option.map_eq_some_iff.mp hdeadline
  rw [hslot] at hmark
  refine ⟨Slot.check_deadline hspared hmark, (entry.1, slot₀), Table.mem_of_get? hslot₀, ?_⟩
  rw [Slot.deadline, Slot.check_stalledSince (htrail.marked hslot₀).2 hmark]
  rfl

/-- A loop that has only slow clients to see to is idle after one turn. -/
theorem idle_after_reap (htrail : Trail past h) {b : Broker} (hhub : b.hub = h)
    (hfree : b.workload = 0) (hclock : h.deadlineOverflows = false) : b.turn.isIdle = true := by
  subst hhub
  have hturn := Broker.turn_of_free hfree hclock
  have hnoneDue : b.turn.isReapDue = false := hturn ▸ b.not_reapDue_reap
  have hfree' : b.turn.workload = 0 := by rw [hturn]; exact hfree
  have hclock' : b.turn.hub.deadlineOverflows = false := by
    rw [hturn]
    show b.hub.reap.deadlineOverflows = false
    have hconfig : b.hub.reap.config = b.hub.config := congrArg Terms.config b.hub.reap_terms
    rw [Hub.deadlineOverflows, hconfig, List.any_eq_false]
    intro entry hentry hlate
    obtain ⟨t, hdeadline, hpast⟩ := (Option.any_eq_true _ _).mp hlate
    obtain ⟨-, entry₀, hentry₀, hdeadline₀⟩ := htrail.reap_deadline hentry hdeadline
    rw [Hub.deadlineOverflows, List.any_eq_false] at hclock
    exact hclock entry₀ hentry₀ ((Option.any_eq_true _ _).mpr ⟨t, hdeadline₀, hpast⟩)
  simp [Broker.isIdle, hfree', hnoneDue, hclock']

/-- The stall clock of a full queue runs from the moment that filled it. -/
theorem deadline_of_stuck (htrail : Trail past h) (hslot : Table.get? h.clients id = some slot)
    (hstuck : Stuck past id slot.client slot.channel.queue x) :
    slot.deadline h.config.patience = some (x.time + h.config.patience) := by
  obtain ⟨later, earlier, rfl, hfills, hunread⟩ := hstuck
  obtain ⟨-, -, hmark⟩ := htrail.remains hfills (fun y hy => (hunread y hy).2) hslot rfl
  rw [Slot.deadline, hmark]
  rfl

/-- Lost clients are those that nobody listens for, and those that are overdue. -/
theorem lost_iff (htrail : Trail past h) (hslot : Table.get? h.clients id = some slot) :
    slot.Lost h.config.patience h.now ↔ slot.channel.attended = false ∨ Overdue past h id slot := by
  refine or_congr_right (and_congr_right fun hfull => ?_)
  obtain ⟨x, hstuck, hmark⟩ := (htrail.stalled hslot).2 hfull
  have htime : x.time ≤ h.now := by
    obtain ⟨later, earlier, rfl, -⟩ := hstuck
    exact htrail.terms_since.2.2
  rw [Slot.stalledFor, hmark, Option.getD_some, decide_eq_true_iff]
  constructor
  · intro hlate
    exact ⟨x, hstuck, by omega⟩
  · rintro ⟨x', hstuck', hlate⟩
    have hsame := (htrail.deadline_of_stuck hslot hstuck).symm.trans
      (htrail.deadline_of_stuck hslot hstuck')
    have htimes := Option.some.inj hsame
    omega

/-- **The loop wakes for slow clients in time, and not twice for one.** At every point of every
run, whatever was delivered, read and given up, and however time has passed:

After a look at the clients, every deadline that is left lies in the future, and so does the
next one. A loop that has nothing but slow clients to see to therefore takes one turn at most,
a look at the clients, and is idle. If the clients were looked at and somebody is due again at
the same instant, a queue was filled in between, and clients may leave theirs full for no time
at all.

A look at the clients takes away exactly those who have given up their queue and those who
have left it full, unread since the moment that filled it, for as long as they may.

A client whose queue is full is not missed, whether it still listens or not: there is a next
deadline, no later than the moment that filled the queue and the time that may pass from it. -/
theorem stall_wakeups (htrail : Trail past h) :
    (∀ id slot t, Table.get? h.reap.clients id = some slot →
      slot.deadline h.config.patience = some t → h.now < t) ∧
    (∀ t, h.reap.nextDeadline = some t → h.now < t) ∧
    (∀ b : Broker, b.hub = h → b.workload = 0 → h.deadlineOverflows = false → ∀ n,
      Broker.turns (n + 1) b = if b.isIdle then b else { b with hub := h.reap }.setAlarm .stall) ∧
    (∀ later y earlier t, past = later ++ y :: earlier → y.act = .reap → y.time = h.now →
      h.nextDeadline = some t → t ≤ h.now →
      h.config.patience = 0 ∧ ∃ z ∈ later, ∃ id k queue, z.fills id k queue) ∧
    (∀ id slot, Table.get? h.clients id = some slot →
      (Table.get? h.reap.clients id = none ↔
        slot.channel.attended = false ∨ Overdue past h id slot)) ∧
    ∀ id slot, Table.get? h.clients id = some slot → slot.channel.isFull = true →
      ∃ x t, Stuck past id slot.client slot.channel.queue x ∧ h.nextDeadline = some t ∧
        t ≤ x.time + h.config.patience := by
  have hconfig : h.reap.config = h.config := congrArg Terms.config h.reap_terms
  refine ⟨?_, ?_, ?_, ?_, ?_, ?_⟩
  · intro id slot t hslot hdeadline
    exact (htrail.reap_deadline (Table.mem_of_get? hslot) hdeadline).1
  · intro t hnext
    obtain ⟨⟨entry, hentry, hdeadline⟩, -⟩ := Hub.nextDeadline_eq_some.mp hnext
    exact (htrail.reap_deadline hentry (hconfig ▸ hdeadline)).1
  · rintro b rfl hfree hclock n
    rw [Broker.turns, Broker.turns_of_idle n (htrail.idle_after_reap rfl hfree hclock),
      Broker.turn_of_free hfree hclock]
  · rintro later y earlier t rfl hreap htime hnext hdue
    obtain ⟨⟨⟨id, slot⟩, hentry, hdeadline⟩, -⟩ := Hub.nextDeadline_eq_some.mp hnext
    obtain ⟨since, hmark, rfl⟩ := Option.map_eq_some_iff.mp hdeadline
    have hslot := Table.get?_of_mem htrail.sound.clients_nodup hentry
    rcases htrail.due_since_reap hreap hslot hmark with hearly | ⟨z, hz, rfl, k, queue, hfills⟩
    · omega
    · -- the clock has not moved since, so no time at all is allowed
      obtain ⟨newer, older, rfl⟩ := List.append_of_mem hz
      have hsince : y.time ≤ z.time := by
        rw [List.append_assoc] at htrail
        exact htrail.before.terms_since.2.2
      exact ⟨by omega, z, hz, id, k, queue, hfills⟩
  · intro id slot hslot
    rw [htrail.sound.reap_slot_none hslot, htrail.lost_iff hslot]
  · intro id slot hslot hfull
    obtain ⟨x, hstuck, -⟩ := (htrail.stalled hslot).2 hfull
    obtain ⟨t, hnext, hle⟩ := Hub.nextDeadline_le (Table.mem_of_get? hslot)
      (htrail.deadline_of_stuck hslot hstuck)
    exact ⟨x, t, hstuck, hnext, hle⟩

/-- A client does not read its greeting, which fills its queue. The loop is due after five
seconds, and then disconnects it. -/
theorem stall_wakeups_unread_greeting : ∃ past h slot x t, Trail past h ∧
    Table.get? h.clients "S1" = some slot ∧ Stuck past "S1" slot.client slot.channel.queue x ∧
    h.nextDeadline = some t ∧ t ≤ x.time + h.config.patience ∧ Overdue past h "S1" slot := by
  have htrail := ((opened { queueCapacity := 0 } {} (by decide)).step
    (.register (.numbered 1 none none [.ok "S1"])) (by decide +kernel) (by decide +kernel)).step
    (.wait 5000) trivial rfl
  obtain ⟨past, h, htrail, slot, hslot, hfull, hreads, hgone⟩ : ∃ past h, Trail past h ∧
      ∃ slot, Table.get? h.clients "S1" = some slot ∧ slot.channel.isFull = true ∧
        slot.channel.attended = true ∧ Table.get? h.reap.clients "S1" = none :=
    ⟨_, _, htrail, _, rfl, by decide +kernel, by decide +kernel, by decide +kernel⟩
  obtain ⟨-, -, -, -, hremoved, hwoken⟩ := stall_wakeups htrail
  obtain ⟨x, t, hstuck, hnext, hle⟩ := hwoken "S1" slot hslot hfull
  rcases (hremoved "S1" slot hslot).mp hgone with hleft | hoverdue
  · cases hleft.symm.trans hreads
  · exact ⟨past, h, slot, x, t, htrail, hslot, hstuck, hnext, hle, hoverdue⟩

end Trail

end EventRelay
