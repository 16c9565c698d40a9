import EventRelay.Proofs.Smooth

/-!
# Slow clients

A client that is disconnected for being slow has left its queue full and unread for as
long as the settings allow (`Trail.condemned`), and one that does so is disconnected when
its time is up and not before. The second half needs a clock that moves smoothly: it is
about the lives of brokers, and about `Broker.sleep`.
-/

namespace EventRelay

namespace Broker.Life

variable {later earlier : List Moment} {x : Moment} {b : Broker} {id : SessionId} {k : ClientId}
  {queue : List Event}

/-- A client that does not read from its full queue stays until its time is up, and not
longer than the loop needs to see it. -/
theorem stays (hlife : Life (later ++ x :: earlier) b) (hfills : x.fills id k queue)
    (hunread : ∀ y ∈ later, ¬ y.act.isReadBy id k) {slot : Slot}
    (hslot : Table.get? b.hub.clients id = some slot) (hclient : slot.client = k) :
    b.now ≤ x.time + b.config.patience ∧
      (b.isIdle = true → b.now < x.time + b.config.patience) := by
  obtain ⟨-, -, hsince⟩ := hlife.trail.remains hfills hunread hslot hclient
  exact ⟨hlife.timely hslot hsince, fun hidle => hlife.ahead hidle hslot hsince⟩

/-- It is gone when time has passed smoothly to its deadline. -/
theorem gone_after_sleep (hlife : Life (later ++ x :: earlier) b) (hfills : x.fills id k queue)
    (hunread : ∀ y ∈ later, ¬ y.act.isReadBy id k) (hpunctual : b.Punctual) {span : Nat}
    (hgoes : (b.sleep span).Goes) (hlate : x.time + b.config.patience ≤ b.now + span) {slot : Slot}
    (hslot : Table.get? (b.sleep span).hub.clients id = some slot) : slot.client ≠ k := by
  intro hclient
  obtain ⟨new, honward, hend⟩ := sleep_onward hlife hpunctual hgoes
  have hlife' : Life ((new ++ later) ++ x :: earlier) (b.sleep span) := by
    rw [List.append_assoc]
    exact hlife.onward honward
  have hunread' : ∀ y ∈ new ++ later, ¬ y.act.isReadBy id k := by
    rintro y hy ⟨c, hread, hc⟩
    rcases List.mem_append.mp hy with hy | hy
    · exact honward.unread hy c hread
    · exact hunread y hy ⟨c, hread, hc⟩
  have hconfig : (b.sleep span).config = b.config :=
    hlife'.trail.terms_since.1.trans hlife.trail.terms_since.1.symm
  have htime := (hlife'.stays hfills hunread' hslot hclient).2 hend.rest.1
  rw [hend.now, hconfig] at htime
  omega

end Broker.Life

/-- **Slow clients, exactly.** At every point of every run:

A client that an event finds unresponsive, or that a look at the clients disconnects
although it listens, has left its queue full and unread for as long as it may. A message
to several sessions is a message to each of them, one after the other, so this is about
every single delivery.

Conversely, let the queue be filled at the moment `x` and let the client read nothing. Its
stall clock shows the time of `x`, whatever is refused meanwhile. Before its time is up, no
message and no look at the clients disconnects it. And in a life in which time passes
smoothly it is not there later than that, nor at that time once the loop has nothing to do;
in particular it is gone when the broker has slept for so long.

After a read, the client is overdue only if its queue was filled again since, and for as
long from then on. -/
theorem Trail.slow_clients {past : List Moment} {h : Hub} (htrail : Trail past h) (id : SessionId) :
    (∀ slot, h.Condemns id slot → Overdue past h id slot) ∧
    (∀ later x earlier k queue, past = later ++ x :: earlier → x.fills id k queue →
      (∀ y ∈ later, ¬ y.act.isReadBy id k) →
      (∀ slot, Table.get? h.clients id = some slot → slot.client = k →
        slot.stalledSince = some x.time ∧
        (slot.channel.attended = true → h.now < x.time + h.config.patience →
          ∀ a, (a = .reap ∨ ∃ m, a = .dispatch m) →
            ∃ slot', Table.get? (h.act a).1.clients id = some slot' ∧ slot'.client = k)) ∧
      ∀ b : Broker, b.hub = h → Broker.Life past b →
        (∀ slot, Table.get? h.clients id = some slot → slot.client = k →
          h.now ≤ x.time + h.config.patience ∧
            (b.isIdle = true → h.now < x.time + h.config.patience)) ∧
        ∀ span, b.Punctual → (b.sleep span).Goes → x.time + h.config.patience ≤ h.now + span →
          ∀ slot, Table.get? (b.sleep span).hub.clients id = some slot → slot.client ≠ k) ∧
    (∀ later y earlier slot, past = later ++ y :: earlier → y.act.isReadBy id slot.client →
      h.Condemns id slot → Overdue later h id slot) := by
  refine ⟨fun slot => htrail.condemned, ?_, ?_⟩
  · rintro later x earlier k queue rfl hfills hunread
    constructor
    · intro slot hslot hclient
      refine ⟨(htrail.remains hfills hunread hslot hclient).2.2, ?_⟩
      intro hreads hearly a hact
      exact htrail.spared hfills hunread hslot hclient hreads hearly hact
    · rintro b rfl hlife
      exact ⟨fun slot hslot hclient => hlife.stays hfills hunread hslot hclient,
        fun span hpunctual hgoes hlate slot hslot =>
          hlife.gone_after_sleep hfills hunread hpunctual hgoes hlate hslot⟩
  · rintro later y earlier slot rfl hread hcondemned
    exact htrail.condemned_since_read hread hcondemned

/-- A broker whose queues have room for a greeting only, with a client that was just admitted. -/
def Broker.narrow : Broker :=
  (({ hub := Hub.opened { queueCapacity := 0 } {},
      heartbeat := Ticker.start 25000 0 } : Broker).register
    {} [.ok "S1"]).1

/-- The client reads nothing, and is gone after five seconds. -/
theorem slow_clients_timed_out : ∃ past b k, Broker.Life past b ∧
    (∃ slot, Table.get? b.hub.clients "S1" = some slot ∧ slot.client = k) ∧
    ∀ slot, Table.get? (b.sleep 5000).hub.clients "S1" = some slot → slot.client ≠ k := by
  have hruns : Broker.narrow.turn.phase = .running := by decide +kernel
  obtain ⟨a, hturn⟩ : ∃ a, Broker.narrow.Turn a Broker.narrow.turn := by
    refine Broker.narrow.turn_cases.resolve_left ?_
    rintro ⟨⟨f, hfailed⟩, -⟩
    cases hruns.symm.trans hfailed
  have hlife : Broker.Life [⟨a, Broker.narrow.hub⟩] Broker.narrow.turn :=
    ((@Broker.Life.start { queueCapacity := 0 } { config := {} } _ rfl nofun rfl).quiet
      (.asked {} [.ok "S1"])).act (.turned (by decide +kernel) hturn)
  obtain ⟨slot, hslot, hfull⟩ : ∃ slot, Table.get? Broker.narrow.turn.hub.clients "S1" = some slot ∧
      slot.channel.isFull = true := (Option.any_eq_true _ _).mp (by decide +kernel)
  have hfills : (Moment.mk a Broker.narrow.hub).fills "S1" slot.client slot.channel.queue := by
    constructor
    · rintro queue ⟨slot', hslot', -⟩
      have hnone : Table.get? Broker.narrow.hub.clients "S1" = none := by decide +kernel
      cases hnone.symm.trans hslot'
    · rw [hturn.hub] at hslot
      exact ⟨slot, hslot, rfl, rfl, hfull⟩
  have hpunctual : Broker.narrow.turn.Punctual := by
    rintro (_ | _ | _) halarm ⟨t, ht, hle⟩
    · cases ht
    · have hbeat : Broker.narrow.turn.alarmAt .heartbeat = some 25000 := by decide +kernel
      have hnow : Broker.narrow.turn.now = 0 := by decide +kernel
      obtain rfl := Option.some.inj (hbeat.symm.trans ht)
      omega
    · exact absurd rfl halarm
  have hgoes : (Broker.narrow.turn.sleep 5000).Goes := by
    intro f hfailed
    have hruns' : (Broker.narrow.turn.sleep 5000).phase = .running := by decide +kernel
    cases hruns'.symm.trans hfailed
  have hlate : Broker.narrow.hub.now + Broker.narrow.turn.hub.config.patience
      ≤ Broker.narrow.turn.hub.now + 5000 := by decide +kernel
  refine ⟨_, _, slot.client, hlife, ⟨slot, hslot, rfl⟩, ?_⟩
  exact (((Trail.slow_clients hlife.trail "S1").2.1 [] _ [] slot.client _ rfl hfills
    (by simp)).2 _ rfl
    hlife).2 5000 hpunctual hgoes hlate

end EventRelay
