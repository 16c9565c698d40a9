import EventRelay.Proofs.Isolation

/-!
# Requests past a limit

What may make the loop fail, in terms of the settings and of the time (`Terms.Bearable`).
A registration fails if the buffer of a new session would be too large, or the queue of its
client (`Hub.Sound.register_fits`; `Hub.replay_fits` and `Hub.Sound.admits` for the
converse). A stalled client makes the loop fail if the clock cannot name its deadline;
no stall clock was started in the future (`Trail.mark_le`).
-/

namespace EventRelay

/-- Buffers and queues of this size can be had, and a deadline that is set now is in time. -/
structure Terms.Bearable (t : Terms) : Prop where
  buffer : t.sessions.bufferCapacity ≤ Limits.maxBuffer
  queue : t.config.queueCapacity + t.sessions.bufferCapacity + 1 ≤ Limits.maxQueue
  clock : t.now + t.config.patience < Clock.horizon

theorem Terms.Bearable.earlier {config : Broker.Config} {sessions : Registry.Config} {now t : Nat}
    (hfits : (⟨config, sessions, t⟩ : Terms).Bearable) (hnow : now ≤ t) :
    (⟨config, sessions, now⟩ : Terms).Bearable :=
  ⟨hfits.buffer, hfits.queue, Nat.lt_of_le_of_lt (Nat.add_le_add_right hnow _) hfits.clock⟩

namespace Hub

variable {h : Hub} {g : Registration} {id : SessionId} {s : Session} {hs : List Client}

/-! ## Opening and creating -/

/-- A queue is opened if it is not too large. -/
theorem openClient_fits {reconnects : Option Nat} {replay : List Event} :
    (∀ f, (h.openClient g id reconnects replay).2 ≠ .error (.fault f)) ↔
      h.config.queueCapacity + replay.length + 1 ≤ Limits.maxQueue := by
  have hword : Limits.maxQueue < Limits.maxWord := by decide
  unfold openClient
  dsimp only
  split
  · next hlarge => exact iff_of_false (fun hno => hno _ rfl) (by omega)
  · split
    · next hlarge => exact iff_of_false (fun hno => hno _ rfl) (Nat.not_le_of_lt hlarge)
    · next hfits => exact iff_of_true nofun (Nat.le_of_not_lt hfits)

end Hub

namespace Registry

variable {r : Registry} {m : Metadata} {id : SessionId}

/-- Only a buffer that is too large keeps a session from being made, if an id is found. -/
theorem create_fits : ∀ {draws : List Draw} {r : Registry},
    r.config.bufferCapacity ≤ Limits.maxBuffer → ∀ f, (r.create m draws).2 ≠ .error (.fault f)
  | [], _, _, _, hout => by cases hout
  | .error _ :: _, _, _, _, hout => by cases hout
  | .ok id :: rest, r, hfits, f, hout => by
      rw [create] at hout
      split at hout
      · exact create_fits (r := r.note .sessionIdTaken) hfits f hout
      · rw [Limits.bufferFault?, if_neg (Nat.not_lt.mpr hfits)] at hout
        cases hout

/-- The first id that is drawn is taken if it is free, and if the buffer is not too large. -/
theorem create_first (hfree : r.find? id = none) (rest : List Draw) :
    (∀ f, (r.create m (.ok id :: rest)).2 ≠ .error (.fault f)) ↔
      r.config.bufferCapacity ≤ Limits.maxBuffer := by
  refine ⟨?_, fun hfits => create_fits hfits⟩
  rw [create, hfree, Limits.bufferFault?]
  by_cases hlarge : Limits.maxBuffer < r.config.bufferCapacity
  · simp [hlarge]
  · exact fun _ => Nat.le_of_not_lt hlarge

theorem create_ok (hfree : r.find? id = none) (hfits : r.config.bufferCapacity ≤ Limits.maxBuffer)
    (rest : List Draw) : (r.create m (.ok id :: rest)).2 = .ok id := by
  rw [create, hfree, Limits.bufferFault?, if_neg (Nat.not_lt.mpr hfits)]
  rfl

/-- A session is not made for want of randomness, or of room for its buffer. -/
theorem create_error : ∀ {draws : List Draw} {r : Registry} {o : Obstacle},
    (r.create m draws).2 = .error o →
      (∃ reason, o = .refusal (.entropy reason)) ∨ o = .fault .bufferTooLarge
  | [], r, o, hout => Or.inl ⟨none, (Except.error.inj hout).symm⟩
  | .error reason :: _, r, o, hout => Or.inl ⟨some reason, (Except.error.inj hout).symm⟩
  | .ok id :: rest, r, o, hout => by
      rw [create] at hout
      split at hout
      · exact create_error hout
      split at hout
      · next fault hfault =>
          rw [Limits.bufferFault?] at hfault
          split at hfault
          · cases hfault
            exact Or.inr (Except.error.inj hout).symm
          · cases hfault
      · cases hout

end Registry

namespace Hub

variable {h : Hub} {g : Registration} {id : SessionId} {s : Session} {hs : List Client}

/-! ## Registering -/

/-- A session never replays more than its buffer holds. -/
theorem Sound.length_replay (hS : h.Sound hs) (hs : h.registry.find? id = some s)
    (last : Option EventId) :
    (s.reclaim last h.now).replay.length ≤ h.registry.config.bufferCapacity := by
  obtain ⟨hwf, hcapacity⟩ := (hS.place id).wf s hs
  have hring := (hwf.reclaim last h.now).ring.length_le
  rw [Session.reclaim_capacity, hcapacity] at hring
  rwa [Session.replay_eq, List.length_map]

/-- No registration goes past a limit if the settings are bearable. -/
theorem Sound.register_fits (hS : h.Sound hs) (hfits : h.terms.Bearable) (f : Fault) :
    (h.register g).2 ≠ .error (.fault f) := by
  have hqueue := hfits.queue
  rw [register_answer]
  cases hclaim : h.claim? g with
  | some id =>
      obtain ⟨-, -, s, hs, -⟩ := h.claim?_eq_some hclaim
      have hlength := hS.length_replay hs g.lastEventId
      rw [h.accept_reclaimed hclaim hs]
      refine openClient_fits.mpr ?_ f
      show h.config.queueCapacity + _ + 1 ≤ _
      simp only [terms] at hqueue
      omega
  | none =>
      rw [h.accept_created hclaim]
      split
      · next r obstacle heq =>
          rintro ⟨⟩
          exact Registry.create_fits hfits.buffer f (congrArg Prod.snd heq)
      · refine openClient_fits.mpr ?_ f
        show h.config.queueCapacity + 0 + 1 ≤ _
        simp only [terms] at hqueue
        omega

/-- A queue for the replay can be had, if the session is given back. -/
theorem replay_fits (hfault : (h.act (.register g)).2.isFault = false)
    (hclaim : h.claim? g = some id) (hs : h.registry.find? id = some s) :
    h.config.queueCapacity + (s.reclaim g.lastEventId h.now).replay.length + 1
      ≤ Limits.maxQueue := by
  have hno := Outcome.ne_fault hfault
  rw [register_answer, h.accept_reclaimed hclaim hs] at hno
  have hfits := openClient_fits.mp hno
  exact hfits

/-- A buffer can be had, if somebody is admitted to a new session. -/
theorem Sound.admits (hS : h.Sound hs) (hfault : (h.act (.register g)).2.isFault = false)
    (hcandidate : g.candidate = none) (hdraws : g.draws = [.ok id])
    (hfree : h.registry.find? id = none) (hstays : g.abandoned = false) :
    h.registry.config.bufferCapacity ≤ Limits.maxBuffer ∧
    (h.act (.register g)).1.place id
      = ⟨some (Session.fresh h.registry.config.bufferCapacity g.metadata h.now),
        some (h.opening g id false [])⟩ := by
  have hno := Outcome.ne_fault hfault
  have hclaim : h.claim? g = none := by rw [claim?, hcandidate]; rfl
  have haccept := h.accept_created hclaim
  rw [register_answer] at hno
  rw [hdraws] at haccept
  have hbuffer : h.registry.config.bufferCapacity ≤ Limits.maxBuffer := by
    refine (Registry.create_first (m := g.metadata) hfree []).mp fun f hf => hno f ?_
    rw [haccept, show h.registry.create g.metadata [.ok id] = (_, .error (.fault f)) from
      Prod.ext rfl hf]
  have hmade := Registry.create_ok (m := g.metadata) hfree hbuffer []
  obtain ⟨r, haccept⟩ : ∃ r,
      h.accept g = ({ h with registry := r } : Hub).openClient g id none [] := by
    rw [show h.registry.create g.metadata [.ok id] = (_, .ok id) from Prod.ext rfl hmade] at haccept
    exact ⟨_, haccept⟩
  rw [haccept] at hno
  refine ⟨hbuffer, ?_⟩
  rcases openClient_cases { h with registry := r } g none [] (hS.free hfree) with
    ⟨f, hf⟩ | ⟨journal, -, heq⟩
  · exact absurd hf (hno f)
  have hout : (h.act (.register g)).2 = .admitted ⟨g.client, id, false, 0⟩ := by
    show Outcome.ofAnswer (h.register g).2 = _
    rw [register_answer, haccept, heq]
    rfl
  have hstep := hS.step (.register g) hfault id
  rw [hout] at hstep
  obtain ⟨s, hplace, -, -, ⟨hback, -⟩ | ⟨-, -, -, rfl⟩⟩ := hstep.admitted rfl
  · cases hback
  · rw [hplace, Place.answer, hstays]
    rfl

theorem openClient_error {reconnects : Option Nat} {replay : List Event} {o : Obstacle}
    (hout : (h.openClient g id reconnects replay).2 = .error o) :
    o = .fault .lengthOverflow ∨ o = .fault .queueTooLarge := by
  unfold openClient at hout
  dsimp only at hout
  split at hout
  · exact Or.inl (Except.error.inj hout).symm
  split at hout
  · exact Or.inr (Except.error.inj hout).symm
  · cases hout

/-- Why a hub does not admit somebody. It never says that the loop has ended. -/
theorem register_error {o : Obstacle} (hout : (h.register g).2 = .error o) :
    (∃ reason, o = .refusal (.entropy reason)) ∨ o = .fault .bufferTooLarge ∨
      o = .fault .lengthOverflow ∨ o = .fault .queueTooLarge := by
  rw [register_answer] at hout
  cases hclaim : h.claim? g with
  | some id =>
      obtain ⟨-, -, s, hs, -⟩ := h.claim?_eq_some hclaim
      rw [h.accept_reclaimed hclaim hs] at hout
      exact Or.inr (Or.inr (openClient_error hout))
  | none =>
      rw [h.accept_created hclaim] at hout
      split at hout
      · next r obstacle heq =>
          obtain rfl := Except.error.inj hout
          exact (Registry.create_error (congrArg Prod.snd heq)).imp_right Or.inl
      · exact Or.inr (Or.inr (openClient_error hout))

end Hub

/-! ## Stall clocks -/

namespace Trail

variable {past : List Moment} {h : Hub} {id : SessionId} {slot : Slot} {since : Nat}

/-- No stall clock was started in the future. -/
theorem mark_le (htrail : Trail past h) (hslot : Table.get? h.clients id = some slot)
    (hsince : slot.stalledSince = some since) : since ≤ h.now := by
  induction htrail generalizing slot with
  | start hempty hstart =>
      rw [(Broker.start_hub hstart).2] at hslot
      cases hslot
  | @step past h htrail a hnew hfault ih =>
      have htrail' : Trail ([] ++ ⟨a, h⟩ :: past) (h.act a).1 := htrail.step a hnew hfault
      have htime : h.now ≤ (h.act a).1.now := htrail'.terms_since.2.2
      rcases (htrail.sound.step a hfault id).slot htrail.sound hslot (fun _ => htrail.marked) with
        ⟨-, -, -, -, hmark⟩ | ⟨slot₀, hslot₀, hb⟩
      · exact (hmark since hsince) ▸ htime
      · rcases hb.mark since hsince with rfl | hsince₀
        · exact htime
        · exact (ih hslot₀ hsince₀).trans htime
  | @aside past h h' htrail hsame ih =>
      have hnow : h'.now = h.now := congrArg Terms.now hsame.terms
      rw [hnow]
      exact ih (hsame.clients ▸ hslot) hsince

/-- Within what is bearable the clock can name every deadline. -/
theorem deadlines_fit (htrail : Trail past h) (hfits : h.terms.Bearable) :
    h.deadlineOverflows = false := by
  refine List.any_eq_false.mpr ?_
  rintro ⟨id, slot⟩ hentry hlate
  obtain ⟨deadline, hdeadline, hover⟩ := (Option.any_eq_true _ _).mp hlate
  obtain ⟨since, hsince, rfl⟩ := Option.map_eq_some_iff.mp hdeadline
  have hslot := Table.get?_of_mem htrail.sound.clients_nodup hentry
  have hmark := htrail.mark_le hslot hsince
  have hclock := hfits.clock
  have hover := of_decide_eq_true hover
  simp only [Hub.terms] at hclock
  omega

end Trail

end EventRelay
