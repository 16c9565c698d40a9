import EventRelay.Proofs.Reclaiming

/-!
# Clients that do not read

The stall clock of a slot is set by the delivery that fills the queue, and a delivery,
a look at the clients and a disconnection all go by it. `Trail.stalled` is the invariant
that makes it right: the mark of a full queue is the time of the moment that filled it,
and the queue has been full and unread ever since (`Stuck`). A mark that a client has left
behind by reading means nothing, since the next filling delivery sets it anew.
-/

namespace EventRelay

/-! ## One slot -/

namespace Slot

/-- The queue has room for an event, and holds no more than it has room for. -/
structure Fits (s : Slot) : Prop where
  room : 0 < s.channel.capacity
  held : s.channel.queue.length ≤ s.channel.capacity

/-- The stall clock of a full queue runs. -/
def Marked (s : Slot) : Prop := s.channel.isFull = true → s.stalledSince.isSome = true

theorem marked_of {P : Moment → Prop} {s : Slot}
    (hmark : s.channel.isFull = true → ∃ x, P x ∧ s.stalledSince = some x.time) : s.Marked := by
  intro hfull
  obtain ⟨x, -, hsince⟩ := hmark hfull
  rw [hsince]
  rfl

theorem isFull_iff {s : Slot} :
    s.channel.isFull = true ↔ s.channel.capacity ≤ s.channel.queue.length :=
  decide_eq_true_iff

theorem not_isFull_iff {s : Slot} :
    s.channel.isFull = false ↔ s.channel.queue.length < s.channel.capacity := by
  rw [← Bool.not_eq_true, isFull_iff, Nat.not_le]

/-- What an act may make of a slot that keeps its client; `read` says that the client
reads. -/
structure Becomes (now : Nat) (read : Prop) (s s' : Slot) : Prop where
  client : s'.client = s.client
  fits : s'.Fits
  stays : s.channel.isFull = true → ¬ read → s'.channel.queue = s.channel.queue ∧
    s'.channel.isFull = true ∧ s'.stalledSince = s.stalledSince
  drains : s.channel.isFull = true → read → s'.channel.isFull = false
  fills : s.channel.isFull = false → s'.channel.isFull = true → s'.stalledSince = some now ∧ ¬ read
  mark : ∀ t, s'.stalledSince = some t → t = now ∨ s.stalledSince = some t

variable {s s' : Slot} {now : Nat} {read : Prop}

theorem Becomes.refl (hfits : s.Fits) (hread : ¬ read) : s.Becomes now read s :=
  ⟨rfl, hfits, fun hfull _ => ⟨rfl, hfull, rfl⟩, fun _ hr => absurd hr hread,
    fun hroom hfull => absurd hfull (by simp [hroom]), fun _ => Or.inr⟩

/-- A queue with room may be looked into. -/
theorem becomes_room (hfits : s.Fits) (hroom : s.channel.isFull = false) : s.Becomes now read s :=
  ⟨rfl, hfits, fun hfull => absurd hfull (by simp [hroom]),
    fun hfull => absurd hfull (by simp [hroom]),
    fun _ hfull => absurd hfull (by simp [hroom]), fun _ => Or.inr⟩

theorem Becomes.unread (hb : s.Becomes now False s') (hread : ¬ read) : s.Becomes now read s' :=
  ⟨hb.client, hb.fits, fun hfull _ => hb.stays hfull id, fun _ hr => absurd hr hread,
    fun hroom hfull => ⟨(hb.fills hroom hfull).1, hread⟩, hb.mark⟩

theorem Becomes.marked (hb : s.Becomes now read s') (hmark : s.Marked) : s'.Marked := by
  intro hfull
  cases hfull₀ : s.channel.isFull with
  | false => rw [(hb.fills hfull₀ hfull).1]; rfl
  | true =>
      by_cases hread : read
      · cases hfull.symm.trans (hb.drains hfull₀ hread)
      · rw [(hb.stays hfull₀ hread).2.2]
        exact hmark hfull₀

theorem Becomes.trans {s'' : Slot} (hb : s.Becomes now False s') (hb' : s'.Becomes now False s'') :
    s.Becomes now False s'' := by
  refine ⟨hb'.client.trans hb.client, hb'.fits, ?_, fun _ => False.elim, ?_, ?_⟩
  · intro hfull _
    obtain ⟨hqueue, hfull', hmark⟩ := hb.stays hfull id
    obtain ⟨hqueue', hfull'', hmark'⟩ := hb'.stays hfull' id
    exact ⟨hqueue'.trans hqueue, hfull'', hmark'.trans hmark⟩
  · intro hroom hfull''
    cases hfull' : s'.channel.isFull with
    | false => exact hb'.fills hfull' hfull''
    | true =>
        rw [(hb'.stays hfull' id).2.2]
        exact hb.fills hroom hfull'
  · intro t ht
    rcases hb'.mark t ht with rfl | ht'
    · exact Or.inl rfl
    · exact hb.mark t ht'

/-- An event that finds room sets the mark if it fills the queue. -/
theorem becomes_taking (hfits : s.Fits) (hroom : s.channel.isFull = false) (e : Event) (now : Nat) :
    s.Becomes now False (s.taking [e] now) := by
  have hlt := not_isFull_iff.mp hroom
  have hlen : (s.taking [e] now).channel.queue.length = s.channel.queue.length + 1 :=
    List.length_append
  refine ⟨rfl, ⟨hfits.room, hlen ▸ hlt⟩, ?_, fun _ => False.elim, ?_, ?_⟩
  · intro hfull
    cases hroom.symm.trans hfull
  · intro _ hfull
    have hle : s.channel.capacity ≤ s.channel.queue.length + 1 := hlen ▸ isFull_iff.mp hfull
    exact ⟨by simp [taking, hle], id⟩
  · intro t ht
    simp only [taking, List.cons_ne_nil, if_false] at ht
    split at ht
    · exact Or.inl (Option.some.inj ht).symm
    · cases ht

/-- The mark of a full queue is not moved. -/
theorem stall_eq (hmark : s.Marked) (hfull : s.channel.isFull = true) (now : Nat) :
    s.stall now = s := by
  obtain ⟨t, ht⟩ := Option.isSome_iff_exists.mp (hmark hfull)
  obtain ⟨client, channel, stalledSince⟩ := s
  obtain rfl : stalledSince = some t := ht
  rfl

/-- A slot that is looked at and not disconnected. -/
theorem becomes_check (hfits : s.Fits) (hmark : s.Marked) (patience now : Nat) :
    s.Becomes now False (s.check patience now).1 := by
  unfold check
  split
  · exact .refl hfits id
  · split
    · next hfull =>
        rw [stall_eq hmark hfull]
        exact .refl hfits id
    · next hroom =>
        rw [Bool.not_eq_true] at hroom
        exact ⟨rfl, ⟨hfits.room, hfits.held⟩, fun hfull => absurd hfull (by simp [hroom]),
          fun _ => False.elim, fun _ hfull => absurd hfull (by simp [hroom]), nofun⟩

/-- A client that reads from a full queue makes room. -/
theorem becomes_rest (hfits : s.Fits) {e : Event} {rest : List Event}
    (hqueue : s.channel.queue = e :: rest) (hread : read) :
    s.Becomes now read { s with channel := { s.channel with queue := rest } } := by
  have hlen : s.channel.queue.length = rest.length + 1 := by rw [hqueue, List.length_cons]
  have hheld := hfits.held
  refine ⟨rfl, ⟨hfits.room, show rest.length ≤ s.channel.capacity by omega⟩,
    fun _ hno => absurd hread hno, ?_, ?_, fun _ => Or.inr⟩
  · intro _ _
    exact not_isFull_iff.mpr (show rest.length < s.channel.capacity by omega)
  · intro hroom hfull
    have hlt := not_isFull_iff.mp hroom
    have hle : s.channel.capacity ≤ rest.length := isFull_iff.mp hfull
    omega

/-- A client that has left keeps its queue. -/
theorem becomes_unattended (hfits : s.Fits) (hread : ¬ read) :
    s.Becomes now read { s with channel := { s.channel with attended := false } } :=
  ⟨rfl, ⟨hfits.room, hfits.held⟩, fun hfull _ => ⟨rfl, hfull, rfl⟩, fun _ hr => absurd hr hread,
    fun hroom hfull => absurd (hroom.symm.trans hfull) Bool.false_ne_true, fun _ => Or.inr⟩

/-! ### Verdicts -/

theorem offer_unresponsive {e : Event} {patience : Nat}
    (hverdict : (s.offer e patience now).2 = .unresponsive) :
    s.channel.isFull = true ∧ s.stalledFor patience now = true := by
  unfold offer at hverdict
  split at hverdict
  · cases hverdict
  · split at hverdict
    · next hfull =>
        refine ⟨hfull, ?_⟩
        by_contra hearly
        rw [if_neg hearly] at hverdict
        cases hverdict
    · cases hverdict

theorem check_late {patience : Nat} (hreads : s.channel.attended = true)
    (hverdict : (s.check patience now).2 = true) :
    s.channel.isFull = true ∧ s.stalledFor patience now = true := by
  unfold check at hverdict
  rw [hreads, Bool.not_true, if_neg Bool.false_ne_true] at hverdict
  split at hverdict
  · next hfull => exact ⟨hfull, hverdict⟩
  · cases hverdict

/-- Whoever is looked at and not disconnected has time left. -/
theorem check_deadline {patience t : Nat} (hverdict : (s.check patience now).2 = false)
    (hmark : (s.check patience now).1.stalledSince = some t) : now < t + patience := by
  unfold check at hverdict hmark
  split at hverdict
  · cases hverdict
  · next hreads =>
      rw [if_neg hreads] at hmark
      split at hverdict
      · next hfull =>
          rw [if_pos hfull] at hmark
          obtain rfl : s.stalledSince.getD now = t := Option.some.inj hmark
          rw [stalledFor, decide_eq_false_iff_not] at hverdict
          omega
      · next hroom =>
          rw [if_neg hroom] at hmark
          cases hmark

end Slot

/-! ## One step -/

namespace Place

variable {keeps : Session → Session → Prop} {e : Event} {t : Terms} {p q : Place}

/-- A client that keeps its session through some fates. -/
theorem Course.becomes {fs : List Fate} (hc : Course keeps e t fs p q) {slot' : Slot}
    (hslot' : q.slot = some slot')
    (hfits : ∀ slot, p.slot = some slot → slot.Fits ∧ slot.Marked) :
    ∃ slot, p.slot = some slot ∧ slot.Becomes t.now False slot' := by
  induction hc with
  | nil p => exact ⟨slot', hslot', .refl (hfits slot' hslot').1 id⟩
  | @cons f fs p q r hmeets hcourse ih =>
      cases hmeets with
      | kept hidle hkept =>
          obtain ⟨slot, hslot, -⟩ := ih hslot' nofun
          cases hslot
      | @delivered s slot hactive hreads hroom =>
          obtain ⟨hfit, hmark⟩ := hfits slot rfl
          have hb := Slot.becomes_taking hfit hroom e t.now
          obtain ⟨slot₁, hslot₁, hb'⟩ := ih hslot' (by
            rintro slot₁ ⟨⟩
            exact ⟨hb.fits, hb.marked hmark⟩)
          obtain rfl := Option.some.inj hslot₁
          exact ⟨slot, rfl, hb.trans hb'⟩
      | @dropped s slot hactive hreads hfull hearly =>
          rw [Slot.stall_eq (hfits slot rfl).2 hfull] at ih
          exact ih hslot' hfits
      | handedOver hactive hover hkept =>
          obtain ⟨slot, hslot, -⟩ := ih hslot' nofun
          cases hslot

/-- A client that loses its session to an event, though it still listens, has left its
queue full for too long. -/
theorem Course.overdue {fs : List Fate} (hc : Course keeps e t fs p q) {slot : Slot}
    (hslot : p.slot = some slot) (hgone : q.slot = none) (hreads : slot.channel.attended = true)
    (hfits : slot.Fits) (hmark : slot.Marked) (hpatience : 0 < t.config.patience) :
    slot.channel.isFull = true ∧ slot.stalledFor t.config.patience t.now = true := by
  induction hc generalizing slot with
  | nil p => cases hslot.symm.trans hgone
  | @cons f fs p q r hmeets hcourse ih =>
      cases hmeets with
      | kept => cases hslot
      | @delivered s slot₀ hactive hreads' hroom =>
          obtain rfl := Option.some.inj hslot
          have hb := Slot.becomes_taking hfits hroom e t.now
          obtain ⟨hfull, hlate⟩ := ih rfl hgone hreads hb.fits (hb.marked hmark)
          rw [Slot.stalledFor, (hb.fills hroom hfull).1, Option.getD_some, Nat.sub_self,
            decide_eq_true_iff] at hlate
          omega
      | @dropped s slot₀ hactive hreads' hfull hearly =>
          obtain rfl := Option.some.inj hslot
          rw [Slot.stall_eq hmark hfull] at ih
          exact ih rfl hgone hreads hfits hmark
      | @handedOver s s' slot₀ hactive hover hkept =>
          obtain rfl := Option.some.inj hslot
          rcases hover with hgone' | hover
          · cases hreads.symm.trans hgone'
          · exact hover

/-- A client that is looked at and not disconnected. -/
theorem inspect_slot {slot' : Slot} (hslot' : (p.inspect t).slot = some slot') :
    ∃ slot, p.slot = some slot ∧ (slot.check t.config.patience t.now).2 = false ∧
      slot' = (slot.check t.config.patience t.now).1 := by
  unfold inspect judge at hslot'
  split at hslot'
  · next hnone => cases hnone.symm.trans hslot'
  · next slot hslot =>
      split at hslot'
      · rw [vacate_slot] at hslot'
        cases hslot'
      · next hspared =>
          exact ⟨slot, hslot, Bool.not_eq_true _ ▸ hspared, (Option.some.inj hslot').symm⟩

theorem inspect_becomes {slot' : Slot} (hslot' : (p.inspect t).slot = some slot')
    (hfits : ∀ slot, p.slot = some slot → slot.Fits ∧ slot.Marked) :
    ∃ slot, p.slot = some slot ∧ slot.Becomes t.now False slot' := by
  obtain ⟨slot, hslot, -, rfl⟩ := inspect_slot hslot'
  obtain ⟨hfit, hmark⟩ := hfits slot hslot
  exact ⟨slot, hslot, Slot.becomes_check hfit hmark _ _⟩

theorem leave_becomes {c : ClientId} {slot' : Slot} (hslot' : (p.leave c).slot = some slot')
    (hfits : ∀ slot, p.slot = some slot → slot.Fits) (now : Nat) :
    ∃ slot, p.slot = some slot ∧ slot.Becomes now False slot' := by
  unfold leave at hslot'
  split at hslot'
  · exact ⟨slot', hslot', .refl (hfits slot' hslot') id⟩
  · next slot hslot =>
      obtain ⟨hsome, -⟩ := Option.filter_eq_some_iff.mp hslot
      obtain rfl := Option.some.inj hslot'
      exact ⟨slot, hsome, Slot.becomes_unattended (hfits slot hsome) id⟩

/-- Only the client that holds the session can read from it. -/
theorem read_becomes {c : ClientId} {slot' : Slot} (hslot' : (p.read c).slot = some slot')
    (hfits : ∀ slot, p.slot = some slot → slot.Fits) (now : Nat) :
    ∃ slot, p.slot = some slot ∧ slot.Becomes now (slot.client = c) slot' := by
  unfold read at hslot'
  split at hslot'
  · next hnone =>
      refine ⟨slot', hslot', .refl (hfits slot' hslot') ?_⟩
      intro hname
      rw [hslot', Option.filter_some, hname] at hnone
      simp at hnone
  · next slot hslot =>
      obtain ⟨hsome, hname⟩ := Option.filter_eq_some_iff.mp hslot
      have hfit := hfits slot hsome
      split at hslot'
      · next hqueue =>
          obtain rfl := Option.some.inj (hsome.symm.trans hslot')
          have hroom : slot.channel.isFull = false :=
            Slot.not_isFull_iff.mpr (by rw [hqueue]; exact hfit.room)
          exact ⟨slot, hsome, Slot.becomes_room hfit hroom⟩
      · next e rest hqueue =>
          obtain rfl := Option.some.inj hslot'
          exact ⟨slot, hsome, Slot.becomes_rest hfit hqueue (beq_iff_eq.mp hname)⟩

end Place

namespace Act

/-- The client with the given name reads from the session. -/
def isReadBy (a : Act) (id : SessionId) (k : ClientId) : Prop :=
  ∃ c, a = .read c ∧ c.session = id ∧ c.id = k

theorem isReadBy_read {c : Client} {k : ClientId} :
    (Act.read c).isReadBy c.session k ↔ k = c.id := by
  constructor
  · rintro ⟨c', hread, -, rfl⟩
    rw [Act.read.inj hread]
  · rintro rfl
    exact ⟨c, rfl, rfl, rfl⟩

end Act

namespace Hub

variable {h : Hub} {id : SessionId} {a : Act} {o : Outcome} {q : Place} {hs : List Client}

theorem opening_fits (h : Hub) (g : Registration) (id : SessionId) (reconnected : Bool)
    (replay : List Event) : (h.opening g id reconnected replay).Fits ∧
      ((h.opening g id reconnected replay).channel.isFull = true →
        (h.opening g id reconnected replay).stalledSince = some h.now) ∧
      ∀ t, (h.opening g id reconnected replay).stalledSince = some t → t = h.now := by
  refine ⟨⟨Nat.succ_pos _, ?_⟩, ?_, ?_⟩
  · show replay.length + 1 ≤ h.config.queueCapacity + replay.length + 1
    omega
  · intro hfull
    have hle : h.config.queueCapacity + replay.length + 1 ≤ replay.length + 1 :=
      Slot.isFull_iff.mp hfull
    have hzero : h.config.queueCapacity = 0 := by omega
    simp [opening, hzero]
  · intro t ht
    rw [opening] at ht
    split at ht
    · exact (Option.some.inj ht).symm
    · cases ht

/-- A slot that is there after an act was there before, or belongs to a new client. -/
theorem Step.slot (hstep : h.Step id a o q) (hS : h.Sound hs) {slot' : Slot}
    (hslot' : q.slot = some slot')
    (hfits : ∀ slot, Table.get? h.clients id = some slot → slot.Fits ∧ slot.Marked) :
    ((∃ g, a = .register g ∧ slot'.client = g.client) ∧ Table.get? h.clients id = none ∧
      slot'.Fits ∧
      (slot'.channel.isFull = true → slot'.stalledSince = some h.now) ∧
      ∀ t, slot'.stalledSince = some t → t = h.now) ∨
    ∃ slot, Table.get? h.clients id = some slot ∧
      slot.Becomes h.now (a.isReadBy id slot.client) slot' := by
  have hsame : ∀ slot, Table.get? h.clients id = some slot → ¬ a.isReadBy id slot.client →
      slot.Becomes h.now (a.isReadBy id slot.client) slot :=
    fun slot hslot hread => .refl (hfits slot hslot).1 hread
  have harrived : ∀ {g s reconnected replay}, Table.get? h.clients id = none →
      (Place.answer ⟨some s, some (h.opening g id reconnected replay)⟩ g h.terms).slot
        = some slot' →
      (∃ g', Act.register g = .register g' ∧ slot'.client = g'.client) ∧
        Table.get? h.clients id = none ∧ slot'.Fits ∧
        (slot'.channel.isFull = true → slot'.stalledSince = some h.now) ∧
        ∀ t, slot'.stalledSince = some t → t = h.now := by
    intro g s reconnected replay hfree hanswer
    obtain rfl := Option.some.inj (Place.answer_slot hanswer)
    exact ⟨⟨g, rfl, rfl⟩, hfree, h.opening_fits g id reconnected replay⟩
  cases hstep with
  | aside hadmits hreads =>
      refine Or.inr ⟨slot', hslot', hsame slot' hslot' ?_⟩
      rintro ⟨c, rfl, hid, -⟩
      exact hreads c rfl hid
  | reclaimed hclaim hs => exact Or.inl (harrived (claim?_eq_some h hclaim).2.1 hslot')
  | created hclaim hs => exact Or.inl (harrived (hS.free hs) hslot')
  | dispatched hs hlen hcourse =>
      obtain ⟨slot, hslot, hb⟩ := hcourse.becomes hslot' hfits
      exact Or.inr ⟨slot, hslot, hb.unread nofun⟩
  | inspected =>
      obtain ⟨slot, hslot, hb⟩ := Place.inspect_becomes hslot' hfits
      exact Or.inr ⟨slot, hslot, hb.unread nofun⟩
  | @read c hc =>
      subst hc
      obtain ⟨slot, hslot, hb⟩ :=
        Place.read_becomes hslot' (fun slot hslot => (hfits slot hslot).1) h.now
      rw [← Act.isReadBy_read] at hb
      exact Or.inr ⟨slot, hslot, hb⟩
  | left hc =>
      obtain ⟨slot, hslot, hb⟩ :=
        Place.leave_becomes hslot' (fun slot hslot => (hfits slot hslot).1) h.now
      exact Or.inr ⟨slot, hslot, hb.unread nofun⟩
  | released hslot hclient =>
      rw [Place.vacate_slot] at hslot'
      cases hslot'
  | stopped =>
      rw [Place.vacate_slot] at hslot'
      cases hslot'
  | swept => exact Or.inr ⟨slot', hslot', hsame slot' hslot' nofun⟩
  | looked => exact Or.inr ⟨slot', hslot', hsame slot' hslot' nofun⟩

/-- The client `k` holds the session, with these events in its queue and room for no more. -/
def Jammed (h : Hub) (id : SessionId) (k : ClientId) (queue : List Event) : Prop :=
  ∃ slot, Table.get? h.clients id = some slot ∧ slot.client = k ∧ slot.channel.queue = queue ∧
    slot.channel.isFull = true

end Hub

/-- The queue of the client was filled here. -/
def Moment.fills (x : Moment) (id : SessionId) (k : ClientId) (queue : List Event) : Prop :=
  (∀ queue', ¬ x.before.Jammed id k queue') ∧ x.after.Jammed id k queue

/-- The queue of the client was filled at the moment `x`, and has been full and unread
since. -/
def Stuck (past : List Moment) (id : SessionId) (k : ClientId) (queue : List Event) (x : Moment) :
    Prop :=
  ∃ later earlier, past = later ++ x :: earlier ∧ x.fills id k queue ∧
    ∀ y ∈ later, y.before.Jammed id k queue ∧ ¬ y.act.isReadBy id k

/-! ## Every run -/

namespace Trail

variable {past later earlier mid : List Moment} {x y : Moment} {h : Hub} {id : SessionId}
  {k : ClientId} {slot : Slot} {queue : List Event}

/-- **The stall clock is right.** The mark of a full queue is the time of the moment that
filled it, and the queue has been full and unread ever since. -/
theorem stalled (htrail : Trail past h) (hslot : Table.get? h.clients id = some slot) :
    slot.Fits ∧ (slot.channel.isFull = true →
      ∃ x, Stuck past id slot.client slot.channel.queue x ∧ slot.stalledSince = some x.time) := by
  induction htrail generalizing slot with
  | start hempty hstart =>
      rw [(Broker.start_hub hstart).2] at hslot
      cases hslot
  | @step past h htrail a hnew hfault ih =>
      have hmarked : ∀ slot, Table.get? h.clients id = some slot → slot.Fits ∧ slot.Marked :=
        fun slot hslot => ⟨(ih hslot).1, Slot.marked_of (ih hslot).2⟩
      have hlast : ∀ {k queue}, (∀ queue', ¬ h.Jammed id k queue') →
          (h.act a).1.Jammed id k queue → Stuck (⟨a, h⟩ :: past) id k queue ⟨a, h⟩ :=
        fun hbefore hafter => ⟨[], past, rfl, ⟨hbefore, hafter⟩, by simp⟩
      rcases ((htrail.step a hnew hfault).step_last id).slot htrail.sound hslot hmarked with
        ⟨-, hfree, hfits, hmark, -⟩ | ⟨slot₀, hslot₀, hb⟩
      · refine ⟨hfits, fun hfull => ⟨_, hlast ?_ ⟨slot, hslot, rfl, rfl, hfull⟩, hmark hfull⟩⟩
        rintro queue' ⟨slot', hslot', -⟩
        cases hfree.symm.trans hslot'
      · refine ⟨hb.fits, fun hfull => ?_⟩
        cases hfull₀ : slot₀.channel.isFull with
        | false =>
            refine ⟨_, hlast ?_ ⟨slot, hslot, rfl, rfl, hfull⟩, (hb.fills hfull₀ hfull).1⟩
            rintro queue' ⟨slot', hslot', -, -, hfull'⟩
            obtain rfl := Option.some.inj (hslot₀.symm.trans hslot')
            cases hfull₀.symm.trans hfull'
        | true =>
            have hread : ¬ a.isReadBy id slot₀.client := by
              intro hread
              cases hfull.symm.trans (hb.drains hfull₀ hread)
            obtain ⟨hqueue, -, hsince⟩ := hb.stays hfull₀ hread
            obtain ⟨x, ⟨later, earlier, rfl, hfills, hstuck⟩, hsince₀⟩ := (ih hslot₀).2 hfull₀
            rw [hb.client, hqueue, hsince]
            refine ⟨x, ⟨⟨a, h⟩ :: later, earlier, rfl, hfills, ?_⟩, hsince₀⟩
            intro y hy
            rcases List.mem_cons.mp hy with rfl | hy
            · exact ⟨⟨slot₀, hslot₀, rfl, rfl, hfull₀⟩, hread⟩
            · exact hstuck y hy
  | aside htrail hsame ih => exact ih (hsame.clients ▸ hslot)

theorem marked (htrail : Trail past h) (hslot : Table.get? h.clients id = some slot) :
    slot.Fits ∧ slot.Marked :=
  ⟨(htrail.stalled hslot).1, Slot.marked_of (htrail.stalled hslot).2⟩

/-- The delivery that fills a queue sets the mark, whatever it was before. -/
theorem mark_of_fills (htrail : Trail (x :: past) h) (hfills : x.fills id k queue)
    (hslot : Table.get? x.after.clients id = some slot) : slot.stalledSince = some x.time := by
  obtain ⟨hbefore, slot', hslot', rfl, rfl, hfull⟩ := hfills
  obtain rfl := Option.some.inj (hslot.symm.trans hslot')
  obtain ⟨x', ⟨later, earlier, hsplit, -, hstuck⟩, hsince⟩ := (htrail.last.stalled hslot).2 hfull
  cases later with
  | nil =>
      obtain ⟨rfl, -⟩ := List.cons.inj hsplit
      exact hsince
  | cons y later =>
      obtain ⟨rfl, -⟩ := List.cons.inj hsplit
      exact absurd (hstuck x (List.mem_cons_self ..)).1 (hbefore _)

/-- A client that does not read from its full queue keeps it. -/
theorem remains (htrail : Trail (later ++ x :: earlier) h) (hfills : x.fills id k queue)
    (hunread : ∀ y ∈ later, ¬ y.act.isReadBy id k) (hslot : Table.get? h.clients id = some slot)
    (hclient : slot.client = k) :
    slot.channel.queue = queue ∧ slot.channel.isFull = true ∧ slot.stalledSince = some x.time := by
  refine htrail.since (P := fun later h => (∀ y ∈ later, ¬ y.act.isReadBy id k) →
    ∀ slot, Table.get? h.clients id = some slot → slot.client = k →
      slot.channel.queue = queue ∧ slot.channel.isFull = true ∧ slot.stalledSince = some x.time)
    ?_ ?_ ?_ hunread slot hslot hclient
  · intro _ slot hslot _
    have hmark := htrail.cut.mark_of_fills hfills hslot
    obtain ⟨-, slot', hslot', -, hqueue, hfull⟩ := hfills
    obtain rfl := Option.some.inj (hslot.symm.trans hslot')
    exact ⟨hqueue, hfull, hmark⟩
  · intro y later hy ih hunread slot hslot hclient
    have hbefore := hy.uncons.1
    rcases (hy.step_last id).slot hbefore.sound hslot (fun _ => hbefore.marked) with
      ⟨⟨g, hact, hname⟩, -⟩ | ⟨slot₀, hslot₀, hb⟩
    · -- the name of the client was given out before
      obtain ⟨-, slot', hslot', hclient', -⟩ := hfills
      obtain ⟨c, hc, -, hcname⟩ := htrail.cut.sound.owned id slot' hslot'
      refine absurd ?_ (hy.client_ne (handles_append later hc) g hact)
      rw [← hname, hclient, hcname, hclient']
    · have hclient₀ : slot₀.client = k := hb.client.symm.trans hclient
      obtain ⟨hqueue, hfull, hmark⟩ := ih (fun z hz => hunread z (List.mem_cons_of_mem _ hz)) slot₀
        hslot₀ hclient₀
      obtain ⟨hqueue', hfull', hmark'⟩ :=
        hb.stays hfull (hclient₀ ▸ hunread y (List.mem_cons_self ..))
      exact ⟨hqueue'.trans hqueue, hfull', hmark'.trans hmark⟩
  · intro later h h' hu ih hunread slot hslot hclient
    exact ih hunread slot (hu.clients ▸ hslot) hclient

/-- Reading fills no queue. -/
theorem fills_unread (htrail : Trail (x :: past) h) (hfills : x.fills id k queue) :
    ¬ x.act.isReadBy id k := by
  obtain ⟨hbefore, slot', hslot', rfl, -, hfull⟩ := hfills
  have hbefore' := htrail.uncons.1
  rcases (htrail.step_last id).slot hbefore'.sound hslot' (fun _ => hbefore'.marked) with
    ⟨⟨g, hact, -⟩, -⟩ | ⟨slot₀, hslot₀, hb⟩
  · rintro ⟨c, hread, -⟩
    cases hact.symm.trans hread
  · cases hfull₀ : slot₀.channel.isFull with
    | false => exact hb.client ▸ (hb.fills hfull₀ hfull).2
    | true => exact absurd ⟨slot₀, hslot₀, hb.client.symm, rfl, hfull₀⟩ (hbefore _)

/-- A queue that was read from has been filled again since, if it is stuck. -/
theorem stuck_since_read (htrail : Trail (later ++ x :: earlier) h) (hread : x.act.isReadBy id k)
    (hstuck : Stuck (later ++ x :: earlier) id k queue y) : Stuck later id k queue y := by
  obtain ⟨newer, older, hsplit, hfills, hunread⟩ := hstuck
  rcases List.append_eq_append_iff.mp hsplit with ⟨between, rfl, hrest⟩ | ⟨between, rfl, hrest⟩
  · cases between with
    | nil =>
        obtain ⟨rfl, -⟩ := List.cons.inj hrest
        exact absurd hread (htrail.cut.fills_unread hfills)
    | cons z between =>
        obtain ⟨rfl, -⟩ := List.cons.inj hrest
        exact absurd hread (hunread x (List.mem_append_right _ (List.mem_cons_self ..))).2
  · cases between with
    | nil =>
        obtain ⟨rfl, -⟩ := List.cons.inj hrest
        exact absurd hread (htrail.cut.fills_unread hfills)
    | cons z between =>
        obtain ⟨rfl, -⟩ := List.cons.inj hrest
        exact ⟨newer, between, rfl, hfills, hunread⟩

end Trail

/-! ## Verdicts -/

namespace Hub

variable {h : Hub} {id : SessionId} {slot : Slot} {hs : List Client}

/-- The client listens, and yet an event that is delivered now would find it
unresponsive, or it would lose its session to a look at the clients. -/
def Condemns (h : Hub) (id : SessionId) (slot : Slot) : Prop :=
  Table.get? h.clients id = some slot ∧ slot.channel.attended = true ∧
    ((∃ e, (h.offer id e).2 = some .unresponsive) ∨ Table.get? h.reap.clients id = none)

theorem Sound.overdue_of_reap (hS : h.Sound hs) (hslot : Table.get? h.clients id = some slot)
    (hreads : slot.channel.attended = true) (hgone : Table.get? h.reap.clients id = none) :
    slot.channel.isFull = true ∧ slot.stalledFor h.config.patience h.now = true := by
  refine Slot.check_late hreads ?_
  by_contra hverdict
  have hplace := congrArg Place.slot (place_reap h hS.clients_nodup id)
  rw [Place.inspect, Place.judge, show (h.place id).slot = some slot from hslot] at hplace
  have hspared : ¬ (slot.check h.terms.config.patience h.terms.now).2 = true := hverdict
  dsimp only at hplace
  rw [if_neg hspared] at hplace
  cases hgone.symm.trans hplace

theorem Sound.overdue_of_dispatch (hS : h.Sound hs) (m : Message)
    (hslot : Table.get? h.clients id = some slot) (hreads : slot.channel.attended = true)
    (hfits : slot.Fits ∧ slot.Marked) (hpatience : 0 < h.config.patience)
    (hgone : Table.get? (h.dispatch m).clients id = none) :
    slot.channel.isFull = true ∧ slot.stalledFor h.config.patience h.now = true := by
  obtain ⟨s, hs, -⟩ := (hS.place id).held.mp (Option.isSome_iff_exists.mpr ⟨slot, hslot⟩)
  obtain ⟨fs, -, hcourse⟩ := hS.course_dispatch m hs
  exact hcourse.overdue hslot hgone hreads hfits.1 hfits.2 hpatience

theorem Sound.overdue (hS : h.Sound hs) (hcondemned : h.Condemns id slot) :
    slot.channel.isFull = true ∧ slot.stalledFor h.config.patience h.now = true := by
  obtain ⟨hslot, hreads, ⟨e, hverdict⟩ | hgone⟩ := hcondemned
  · refine Slot.offer_unresponsive (e := e) ?_
    obtain ⟨journal, -, hoffer⟩ := offer_some h hslot e
    rw [hoffer] at hverdict
    exact Option.some.inj hverdict
  · exact hS.overdue_of_reap hslot hreads hgone

end Hub

/-- The client has left its queue full and unread for as long as it may. -/
def Overdue (past : List Moment) (h : Hub) (id : SessionId) (slot : Slot) : Prop :=
  slot.channel.isFull = true ∧ ∃ x, Stuck past id slot.client slot.channel.queue x ∧
    x.time + h.config.patience ≤ h.now

namespace Trail

variable {past later earlier : List Moment} {x y : Moment} {h : Hub} {id : SessionId}
  {k : ClientId} {slot : Slot} {queue : List Event}

/-- Whoever is condemned is overdue. -/
theorem condemned (htrail : Trail past h) (hcondemned : h.Condemns id slot) :
    Overdue past h id slot := by
  obtain ⟨hfull, hlate⟩ := htrail.sound.overdue hcondemned
  refine ⟨hfull, ?_⟩
  obtain ⟨x, hstuck, hsince⟩ := (htrail.stalled hcondemned.1).2 hfull
  have hsplit := hstuck
  obtain ⟨later, earlier, rfl, -⟩ := hsplit
  have htime := htrail.terms_since.2.2
  rw [Slot.stalledFor, hsince, Option.getD_some, decide_eq_true_iff] at hlate
  exact ⟨x, hstuck, by omega⟩

/-- Whoever has read is overdue only after its queue was filled again. -/
theorem condemned_since_read (htrail : Trail (later ++ y :: earlier) h)
    (hread : y.act.isReadBy id slot.client) (hcondemned : h.Condemns id slot) :
    Overdue later h id slot := by
  obtain ⟨hfull, x, hstuck, hlate⟩ := htrail.condemned hcondemned
  exact ⟨hfull, x, htrail.stuck_since_read hread hstuck, hlate⟩

/-- A client that has time left keeps its session, whatever is sent. -/
theorem spared (htrail : Trail (later ++ x :: earlier) h) (hfills : x.fills id k queue)
    (hunread : ∀ y ∈ later, ¬ y.act.isReadBy id k) (hslot : Table.get? h.clients id = some slot)
    (hclient : slot.client = k) (hreads : slot.channel.attended = true)
    (hearly : h.now < x.time + h.config.patience) {a : Act}
    (hact : a = .reap ∨ ∃ m, a = .dispatch m) :
    ∃ slot', Table.get? (h.act a).1.clients id = some slot' ∧ slot'.client = k := by
  have htime := htrail.terms_since.2.2
  obtain ⟨-, hfull, hsince⟩ := htrail.remains hfills hunread hslot hclient
  have hfits := htrail.marked hslot
  cases hgone : Table.get? (h.act a).1.clients id with
  | none =>
      have hlate : slot.stalledFor h.config.patience h.now = true := by
        rcases hact with rfl | ⟨m, rfl⟩
        · exact (htrail.sound.overdue_of_reap hslot hreads hgone).2
        · exact (htrail.sound.overdue_of_dispatch m hslot hreads hfits (by omega) hgone).2
      rw [Slot.stalledFor, hsince, Option.getD_some, decide_eq_true_iff] at hlate
      omega
  | some slot' =>
      have hstep := htrail.sound.step a (by rcases hact with rfl | ⟨m, rfl⟩ <;> rfl) id
      rcases hstep.slot htrail.sound hgone (fun _ => htrail.marked) with
        ⟨⟨g, rfl, -⟩, -⟩ | ⟨slot₀, hslot₀, hb⟩
      · rcases hact with hact | ⟨m, hact⟩ <;> cases hact
      · obtain rfl := Option.some.inj (hslot.symm.trans hslot₀)
        exact ⟨slot', rfl, hb.client.trans hclient⟩

end Trail

end EventRelay
