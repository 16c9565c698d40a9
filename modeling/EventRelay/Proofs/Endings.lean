import EventRelay.Proofs.Isolation

/-!
# How connections end

A connection ends by its own release, an unregistration of its session, an answer that
finds the caller gone, a delivery or a look at the clients that finds it lost, or the end of
the loop. `EndsFor` lists these causes with all that they ask for, and `Trail.ends_iff` says
that a connection ends exactly where one of them is found. A release that names another
client, or a session without one, is only reported.

The names of those who were told that it is over are kept in a list that no name enters
twice (`Trail.told_once`), and who is in it holds no session any more.
-/

namespace EventRelay

/-! ## Lost clients -/

namespace Slot

/-- Nobody listens, or the queue is full and the client has had time to read. -/
def Lost (s : Slot) (patience now : Nat) : Prop :=
  s.channel.attended = false ∨ s.channel.isFull = true ∧ s.stalledFor patience now = true

variable (s : Slot) (patience now : Nat)

theorem offer_isFatal_iff (e : Event) :
    (s.offer e patience now).2.isFatal = true ↔ s.Lost patience now := by
  unfold offer Lost
  cases s.channel.attended with
  | false => simp [Delivery.isFatal]
  | true =>
      cases s.channel.isFull with
      | false => simp [Delivery.isFatal]
      | true => cases s.stalledFor patience now <;> simp [Delivery.isFatal]

theorem check_iff : (s.check patience now).2 = true ↔ s.Lost patience now := by
  unfold check Lost
  cases s.channel.attended with
  | false => simp
  | true => cases s.channel.isFull <;> simp

end Slot

namespace Place

variable {p : Place} {t : Terms} {e : Event} {slot : Slot}

/-- A client that is looked at stays unless the look says otherwise. -/
theorem judge_slot_none (f : Slot → Slot × Bool) (hslot : p.slot = some slot) :
    (p.judge f t).slot = none ↔ (f slot).2 = true := by
  unfold judge
  rw [hslot]
  dsimp only
  split
  · next hlost => simp [vacate_slot, hlost]
  · next hstays => simp [hstays]

theorem inspect_slot_none (hslot : p.slot = some slot) :
    (p.inspect t).slot = none ↔ slot.Lost t.config.patience t.now :=
  (judge_slot_none _ hslot).trans (slot.check_iff _ _)

theorem receive_slot_none (hslot : p.slot = some slot) :
    (p.receive e t).slot = none ↔ slot.Lost t.config.patience t.now :=
  (judge_slot_none _ hslot).trans (slot.offer_isFatal_iff _ _ e)

/-- Deliveries bring no client. -/
theorem receive_of_none (hslot : p.slot = none) : (p.receive e t).slot = none := by
  show (p.tell e t).slot = none
  rw [tell_none hslot]
  exact hslot

/-- A client that is gone after some deliveries was found lost by one of them. -/
theorem iterate_receive_slot_none (n : Nat) (hslot : p.slot = some slot) :
    ((fun q => q.receive e t)^[n] p).slot = none ↔
      ∃ i < n, ∃ found, ((fun q => q.receive e t)^[i] p).slot = some found ∧
        found.Lost t.config.patience t.now := by
  induction n with
  | zero => simp [hslot]
  | succ n ih =>
      rw [Function.iterate_succ_apply']
      cases hn : ((fun q => q.receive e t)^[n] p).slot with
      | none =>
          obtain ⟨i, hi, hfound⟩ := ih.mp hn
          exact iff_of_true (receive_of_none hn) ⟨i, Nat.lt_succ_of_lt hi, hfound⟩
      | some last =>
          rw [receive_slot_none hn]
          constructor
          · intro hlost
            exact ⟨n, Nat.lt_succ_self n, last, hn, hlost⟩
          · rintro ⟨i, hi, found, hfound, hlost⟩
            rcases Nat.lt_succ_iff_lt_or_eq.mp hi with hi | rfl
            · cases hn.symm.trans (ih.mpr ⟨i, hi, found, hfound, hlost⟩)
            · exact Option.some.inj (hn.symm.trans hfound) ▸ hlost

end Place

namespace Hub

variable {hs : List Client} {h : Hub} {id : SessionId} {slot slot₀ : Slot} {a : Act}

/-- A delivery of the act, or its look at the clients, comes upon the slot. A message is
delivered to a session once for each time that it names it. -/
inductive Finds (h : Hub) (id : SessionId) (slot : Slot) : Act → Prop
  | looking (hslot : Table.get? h.clients id = some slot) : Finds h id slot .reap
  | delivering {m : Message} {n : Nat} (hn : n < m.scope.copies id)
      (hslot : ((fun q => q.receive m.event h.terms)^[n] (h.place id)).slot = some slot) :
      Finds h id slot (.dispatch m)

/-- What takes the client `k` from the session that it holds. -/
inductive Ousts (h : Hub) (id : SessionId) (k : ClientId) : Act → Prop
  | letGo {client : Option ClientId} (hclient : client.all (· == k) = true) :
      Ousts h id k (.release id client)
  | lost {a : Act} {slot : Slot} (hfinds : h.Finds id slot a)
      (hlost : slot.Lost h.config.patience h.now) : Ousts h id k a
  | stopped : Ousts h id k .stop

/-- Some delivery of a message finds the client lost, or the client stays. -/
theorem Sound.dispatch_slot_none (hS : h.Sound hs) (hslot : Table.get? h.clients id = some slot₀)
    (m : Message) : ((h.act (.dispatch m)).1.place id).slot = none ↔
      ∃ slot, h.Finds id slot (.dispatch m) ∧ slot.Lost h.config.patience h.now := by
  have hdelivered : ((h.place id).next h.terms id (.dispatch m)).slot
      = ((fun q => q.receive m.event h.terms)^[m.scope.copies id] (h.place id)).slot := by
    rw [Place.next]
    split
    · next hlive =>
        rw [hlive]
        rfl
    · rfl
  rw [hS.place_act fun _ => Act.noConfusion, hdelivered, Place.iterate_receive_slot_none _ hslot]
  constructor
  · rintro ⟨i, hi, slot, hfound, hlost⟩
    exact ⟨slot, .delivering hi hfound, hlost⟩
  · rintro ⟨slot, hfinds, hlost⟩
    cases hfinds with
    | delivering hn hfound => exact ⟨_, hn, slot, hfound, hlost⟩

/-- Unless it is a registration, an act takes the client from its session exactly if it has a
reason to. -/
theorem Sound.vacated_iff (hS : h.Sound hs) (hslot : Table.get? h.clients id = some slot₀)
    (hreg : ∀ g, a ≠ .register g) :
    Table.get? (h.act a).1.clients id = none ↔ h.Ousts id slot₀.client a := by
  have hplace : (h.act a).1.place id = (h.place id).next h.terms id a := hS.place_act hreg
  have hslot' : (h.place id).slot = some slot₀ := hslot
  have hqueue : (h.place id).queueOf slot₀.client = some slot₀.channel.queue :=
    Place.queueOf_eq_some.mpr ⟨slot₀, hslot', rfl, rfl⟩
  have hstays : ∀ {q : Place} {es}, q.queueOf slot₀.client = some es → q.slot ≠ none := by
    intro q es hes hnone
    obtain ⟨slot, hsome, -⟩ := Place.queueOf_eq_some.mp hes
    cases hnone.symm.trans hsome
  show ((h.act a).1.place id).slot = none ↔ _
  cases a with
  | register g => exact absurd rfl (hreg g)
  | release key client =>
      rw [hplace, Place.next]
      by_cases hkey : id = key
      · subst hkey
        rw [if_pos rfl, Place.letGo, hslot', Option.any_some]
        split
        · next hclient => exact iff_of_true (Place.vacate_slot _ _) (.letGo hclient)
        · next hclient =>
            refine iff_of_false (hstays hqueue) ?_
            rintro (hclient' | ⟨⟨⟩, -⟩)
            exact hclient hclient'
      · rw [if_neg hkey]
        refine iff_of_false (hstays hqueue) ?_
        rintro (hclient | ⟨⟨⟩, -⟩)
        exact hkey rfl
  | dispatch m =>
      rw [hS.dispatch_slot_none hslot m]
      constructor
      · rintro ⟨slot, hfinds, hlost⟩
        exact .lost hfinds hlost
      · rintro (_ | ⟨hfinds, hlost⟩)
        exact ⟨_, hfinds, hlost⟩
  | reap =>
      rw [hplace, Place.next, Place.inspect_slot_none hslot']
      constructor
      · intro hlost
        exact .lost (.looking hslot) hlost
      · rintro (_ | ⟨⟨hfound⟩, hlost⟩)
        exact Option.some.inj (hslot.symm.trans hfound) ▸ hlost
  | stop =>
      rw [hplace]
      exact iff_of_true (Place.vacate_slot _ _) .stopped
  | read c =>
      rw [hplace, Place.next]
      refine iff_of_false ?_ (by rintro (_ | ⟨⟨⟩, -⟩))
      have hread := (h.place id).queueOf_read c.id slot₀.client
      rw [hqueue] at hread
      split
      · split at hread <;> exact hstays hread
      · exact hstays hqueue
  | leave c =>
      rw [hplace, Place.next]
      refine iff_of_false ?_ (by rintro (_ | ⟨⟨⟩, -⟩))
      split
      · exact hstays (((h.place id).queueOf_leave c.id slot₀.client).trans hqueue)
      · exact hstays hqueue
  | look key =>
      rw [hplace, Place.next]
      refine iff_of_false ?_ (by rintro (_ | ⟨⟨⟩, -⟩))
      split <;> exact hstays hqueue
  | _ =>
      rw [hplace, Place.next]
      exact iff_of_false (hstays hqueue) (by rintro (_ | ⟨⟨⟩, -⟩))

/-! ### Telling them once -/

/-- Whoever holds a session has not been told that the connection is over. -/
theorem Sound.not_closed_of_slot (hS : h.Sound hs) (hslot : Table.get? h.clients id = some slot) :
    slot.client ∉ h.closed := by
  obtain ⟨c, hc, rfl, hname⟩ := hS.owned id slot hslot
  rw [← hname, hS.closed_iff c hc, not_not]
  exact ⟨slot, hslot, hname.symm⟩

/-- No client has two slots. -/
theorem Sound.nodup_holders (hS : h.Sound hs) : (h.clients.map (·.2.client)).Nodup := by
  refine (hS.clients_nodup.of_map _).map_on ?_
  rintro ⟨id, slot⟩ hmem ⟨id', slot'⟩ hmem' (hsame : slot.client = slot'.client)
  have hslot := Table.get?_of_mem hS.clients_nodup hmem
  have hslot' := Table.get?_of_mem hS.clients_nodup hmem'
  obtain ⟨c, hc, rfl, hname⟩ := hS.owned id slot hslot
  obtain ⟨c', hc', rfl, hname'⟩ := hS.owned id' slot' hslot'
  obtain rfl := hS.handle_ext hc hc' (hname.trans (hsame.trans hname'.symm))
  obtain rfl := Option.some.inj (hslot.symm.trans hslot')
  rfl

theorem Sound.told_unregister (hS : h.Sound hs) (htold : h.closed.Nodup) (id : SessionId)
    (client : Option ClientId) : (h.unregister id client).1.closed.Nodup := by
  unfold Hub.unregister
  split
  · next slot hslot =>
      split
      · exact List.nodup_cons.mpr ⟨hS.not_closed_of_slot hslot, htold⟩
      · exact htold
  · exact htold

theorem Sound.told_forceDisconnect (hS : h.Sound hs) (htold : h.closed.Nodup) (id : SessionId) :
    (h.forceDisconnect id).closed.Nodup := by
  have hout := hS.told_unregister htold id none
  unfold Hub.forceDisconnect
  split <;> next heq => rwa [heq] at hout

theorem Sound.told_release (hS : h.Sound hs) (htold : h.closed.Nodup) (id : SessionId)
    (client : Option ClientId) : (h.release id client).closed.Nodup := by
  have hout := hS.told_unregister htold id client
  unfold Hub.release
  split <;> next heq => rwa [heq] at hout

theorem Sound.told_foldl_forceDisconnect (hS : h.Sound hs) (htold : h.closed.Nodup)
    (ids : List SessionId) : (ids.foldl Hub.forceDisconnect h).closed.Nodup := by
  induction ids generalizing h with
  | nil => exact htold
  | cons id ids ih => exact ih (hS.forceDisconnect id) (hS.told_forceDisconnect htold id)

theorem Sound.told_dispatchLive (hS : h.Sound hs) (htold : h.closed.Nodup) (e : Event) :
    (h.dispatchLive e).closed.Nodup := by
  obtain ⟨journal, hjournal, heq⟩ := offerAll_eq h e
  unfold Hub.dispatchLive
  rw [heq]
  exact told_foldl_forceDisconnect (hS.judged (offering_client e) hjournal) htold _

theorem Sound.told_dispatchTo (hS : h.Sound hs) (htold : h.closed.Nodup) (e : Event)
    (id : SessionId) : (h.dispatchTo e id).closed.Nodup := by
  unfold Hub.dispatchTo
  cases hslot : Table.get? h.clients id with
  | none =>
      rw [offer_none h hslot]
      exact htold
  | some slot =>
      obtain ⟨journal, hjournal, heq⟩ := offer_some h hslot e
      have hoffered := hS.put_slot hslot (h.offering e slot).1 (offering_client e slot) hjournal
      rw [heq]
      dsimp only
      split
      · exact hoffered.told_forceDisconnect htold id
      · exact htold

theorem Sound.told_foldl_dispatchTo (hS : h.Sound hs) (htold : h.closed.Nodup) (e : Event)
    (ids : List SessionId) : (ids.foldl (fun h id => h.dispatchTo e id) h).closed.Nodup := by
  induction ids generalizing h with
  | nil => exact htold
  | cons id ids ih => exact ih (hS.dispatchTo e id) (hS.told_dispatchTo htold e id)

theorem Sound.told_register (hS : h.Sound hs) (htold : h.closed.Nodup) {g : Registration}
    (hnew : ∀ c ∈ hs, c.id ≠ g.client) (hfault : ∀ f, (h.register g).2 ≠ .error (.fault f)) :
    (h.register g).1.closed.Nodup := by
  rw [register_answer] at hfault
  have hadm := accept_cases h g (fun _ => hS.free) hfault
  unfold Hub.register
  cases haccept : h.accept g with
  | mk h' answer =>
      rw [haccept] at hadm
      have hS' := hS.admission hadm hnew
      have htold' : h'.closed.Nodup := by
        cases hadm with
        | refused hclaim hout => exact hout.closed ▸ htold
        | reclaimed hclaim hs hin => exact hin.closed ▸ htold
        | created hclaim hs hin => exact hin.closed ▸ htold
      cases answer with
      | error o => exact htold'
      | ok c =>
          dsimp only
          split
          · exact (hS'.note fun _ _ => Notice.noConfusion).told_unregister htold' _ _
          · exact htold'

/-- No act tells a client twice that its connection is over. -/
theorem Sound.told_act {past : List Occurrence} (hS : h.Sound (handles past))
    (htold : h.closed.Nodup) (hnew : a.newcomer past) (hfault : (h.act a).2.isFault = false) :
    (h.act a).1.closed.Nodup := by
  cases a with
  | register g => exact hS.told_register htold hnew (Outcome.ne_fault hfault)
  | release id client => exact hS.told_release htold id client
  | dispatch m =>
      show (h.dispatch m).closed.Nodup
      unfold Hub.dispatch
      split
      · exact hS.told_dispatchLive htold m.event
      · exact hS.told_dispatchLive htold m.event
      · exact hS.told_foldl_dispatchTo htold m.event _
  | reap =>
      show h.reap.closed.Nodup
      rw [reap_eq]
      exact told_foldl_forceDisconnect
        (hS.judged (fun slot => check_client slot _ _) fun _ _ hmem => hmem) htold _
  | stop =>
      refine hS.nodup_holders.append htold ?_
      intro k hk hclosed
      obtain ⟨⟨id, slot⟩, hmem, rfl⟩ := List.mem_map.mp hk
      exact hS.not_closed_of_slot (Table.get?_of_mem hS.clients_nodup hmem) hclosed
  | read c =>
      show (h.read c).1.closed.Nodup
      unfold Hub.read
      split
      · exact htold
      · split <;> exact htold
  | leave c =>
      show (h.leave c).closed.Nodup
      unfold Hub.leave
      split <;> exact htold
  | _ => exact htold

/-- A release that nobody answers to is only reported. -/
theorem release_stale {client : Option ClientId}
    (hstale : ∀ slot, Table.get? h.clients id = some slot → client.all (· == slot.client) = false) :
    h.release id client = h.note (.noLiveClient id) := by
  unfold release
  rw [unregister_none h hstale]

end Hub

/-! ## Every run -/

/-- Why the connection `c` ends at the moment `x`. -/
inductive EndsFor (earlier : List Moment) (x : Moment) (c : Client) : Prop
  | released (hact : x.act = .release c.session (some c.id))
  | unregistered (hact : x.act = .release c.session none)
  /-- The caller had gone away before the answer. -/
  | abandoned {g : Registration} (hact : x.act = .register g) (hgone : g.abandoned = true)
      (hout : x.outcome = .admitted c)
  /-- Nobody listens any more. -/
  | deserted {slot : Slot} (hfinds : x.before.Finds c.session slot x.act)
      (hclient : slot.client = c.id) (hgone : slot.channel.attended = false)
  /-- The queue has been full and unread for as long as it may. -/
  | overdue {slot : Slot} (hfinds : x.before.Finds c.session slot x.act)
      (hclient : slot.client = c.id) (hfull : slot.channel.isFull = true)
      (hlate : x.before.config.patience = 0 ∨
        ∃ y, Stuck earlier c.session c.id slot.channel.queue y ∧
          y.time + x.before.config.patience ≤ x.time)
  | stopped (hact : x.act = .stop)

namespace Trail

variable {past earlier : List Moment} {x : Moment} {h : Hub} {c : Client} {id : SessionId}
  {slot slot₀ : Slot} {a : Act}

/-- **Nobody is told twice.** -/
theorem told_once (htrail : Trail past h) : h.closed.Nodup := by
  induction htrail with
  | @start config registry b hempty hstart =>
      have hnobody : b.hub.closed = [] := by
        refine List.eq_nil_iff_forall_not_mem.mpr fun k hk => ?_
        obtain ⟨c, hc, -⟩ := (start hempty hstart).sound.closed_known k hk
        cases hc
      rw [hnobody]
      exact List.nodup_nil
  | step htrail a hnew hfault ih => exact htrail.sound.told_act ih hnew hfault
  | aside htrail hsame ih => exact hsame.closed ▸ ih

/-- A slot that is found is the one that was there, but for what was delivered before. -/
theorem becomes_found (htrail : Trail past h) (hfinds : h.Finds id slot a) :
    ∃ slot₀, Table.get? h.clients id = some slot₀ ∧ slot₀.Becomes h.now False slot := by
  have hplace := htrail.sound.place id
  have hmarked : ∀ slot, Table.get? h.clients id = some slot → slot.Fits ∧ slot.Marked :=
    fun slot => htrail.marked
  cases hfinds with
  | looking hslot => exact ⟨slot, hslot, .refl (hmarked slot hslot).1 not_false⟩
  | @delivering m n hn hslot =>
      cases hs : (h.place id).session with
      | some s =>
          obtain ⟨fs, -, hcourse⟩ := hplace.course_receive (t := h.terms) hs m.event n
          exact hcourse.becomes hslot hmarked
      | none =>
          rw [Function.iterate_fixed (Place.receive_absent hs hplace.held m.event)] at hslot
          obtain ⟨s, hs', -⟩ := hplace.held.mp (hslot ▸ rfl)
          cases hs.symm.trans hs'

/-- A queue that is found full has been so for too long exactly if it was filled early enough
and has not been read since. -/
theorem stalledFor_iff (htrail : Trail past h) (hfinds : h.Finds id slot a)
    (hfull : slot.channel.isFull = true) :
    slot.stalledFor h.config.patience h.now = true ↔ h.config.patience = 0 ∨
      ∃ y, Stuck past id slot.client slot.channel.queue y ∧ y.time + h.config.patience ≤ h.now := by
  obtain ⟨slot₀, hslot₀, hb⟩ := htrail.becomes_found hfinds
  rw [Slot.stalledFor, decide_eq_true_iff]
  constructor
  · intro hlate
    cases hfull₀ : slot₀.channel.isFull with
    | false =>
        rw [(hb.fills hfull₀ hfull).1, Option.getD_some, Nat.sub_self] at hlate
        exact Or.inl (Nat.le_zero.mp hlate)
    | true =>
        obtain ⟨hqueue, -, hsince⟩ := hb.stays hfull₀ not_false
        obtain ⟨y, hstuck, hmark⟩ := (htrail.stalled hslot₀).2 hfull₀
        have htime : y.time ≤ h.now := by
          obtain ⟨later, earlier, rfl, -⟩ := hstuck
          exact htrail.terms_since.2.2
        rw [hsince, hmark, Option.getD_some] at hlate
        rw [hqueue, hb.client]
        exact Or.inr ⟨y, hstuck, by omega⟩
  · rintro (hzero | ⟨y, hstuck, hlate⟩)
    · rw [hzero]
      exact Nat.zero_le _
    · obtain ⟨later, earlier, rfl, hfills, hunread⟩ := hstuck
      rw [hb.client] at hfills hunread
      obtain ⟨-, hfull₀, hmark⟩ :=
        htrail.remains hfills (fun z hz => (hunread z hz).2) hslot₀ rfl
      rw [(hb.stays hfull₀ not_false).2.2, hmark, Option.getD_some]
      omega

/-- The reasons for which an act may take the client of a session. -/
theorem ousts_iff (htrail : Trail earlier x.before)
    (hslot₀ : Table.get? x.before.clients c.session = some slot₀) (hclient₀ : slot₀.client = c.id)
    (hreg : ∀ g, x.act ≠ .register g) :
    x.before.Ousts c.session slot₀.client x.act ↔ EndsFor earlier x c := by
  have hholder : ∀ {slot}, x.before.Finds c.session slot x.act → slot.client = c.id := by
    intro slot hfinds
    obtain ⟨slot₁, hslot₁, hb⟩ := htrail.becomes_found hfinds
    obtain rfl := Option.some.inj (hslot₀.symm.trans hslot₁)
    exact hb.client.trans hclient₀
  constructor
  · intro hout
    generalize hact : x.act = a at hout
    cases hout with
    | @letGo client hclient =>
        cases client with
        | none => exact .unregistered hact
        | some k =>
            obtain rfl : k = slot₀.client := beq_iff_eq.mp hclient
            exact .released (hclient₀ ▸ hact)
    | lost hfinds hlost =>
        rw [← hact] at hfinds
        rcases hlost with hgone | ⟨hfull, hlate⟩
        · exact .deserted hfinds (hholder hfinds) hgone
        · rw [htrail.stalledFor_iff hfinds hfull, hholder hfinds] at hlate
          exact .overdue hfinds (hholder hfinds) hfull hlate
    | stopped => exact .stopped hact
  · intro hends
    cases hends with
    | released hact =>
        rw [hact, ← hclient₀]
        exact .letGo (beq_self_eq_true slot₀.client)
    | unregistered hact =>
        rw [hact]
        exact .letGo rfl
    | abandoned hact hgone hout => exact absurd hact (hreg _)
    | deserted hfinds hclient hgone => exact .lost hfinds (Or.inl hgone)
    | overdue hfinds hclient hfull hlate =>
        refine .lost hfinds (Or.inr ⟨hfull, ?_⟩)
        rw [htrail.stalledFor_iff hfinds hfull, hclient]
        exact hlate
    | stopped hact =>
        rw [hact]
        exact .stopped

/-- A connection that is new ends at once exactly if the caller has gone away. -/
theorem ends_at_once_iff (htrail : Trail (x :: earlier) h) (hout : x.outcome = .admitted c) :
    x.ends c ↔ EndsFor earlier x c := by
  obtain ⟨g, hact⟩ := Moment.registration hout
  constructor
  · intro hends
    cases hgone : g.abandoned with
    | false => exact absurd hends.2 (htrail.not_closed_after hact hout hgone)
    | true => exact .abandoned hact hgone hout
  · intro hfor
    obtain ⟨g', hact', hgone⟩ : ∃ g', x.act = .register g' ∧ g'.abandoned = true := by
      cases hfor with
      | abandoned hact' hgone _ => exact ⟨_, hact', hgone⟩
      | deserted hfinds | overdue hfinds =>
          rw [hact] at hfinds
          cases hfinds
      | released hact' | unregistered hact' | stopped hact' => cases hact.symm.trans hact'
    obtain ⟨s, hplace, -⟩ := htrail.admitted hact' hout
    rw [Place.answer, if_pos hgone] at hplace
    exact ⟨htrail.not_closed_before hact hout,
      htrail.last.closed_of_none (handles_admitted hout) (congrArg Place.slot hplace)⟩

/-- A connection that is there ends exactly if there is a reason. -/
theorem closed_after_iff (htrail : Trail (x :: earlier) h)
    (hc : c ∈ handles (earlier.map Moment.occurrence)) (hopen : c.id ∉ x.before.closed) :
    c.id ∈ x.after.closed ↔ EndsFor earlier x c := by
  have hbefore := htrail.uncons.1
  have hS := hbefore.sound
  obtain ⟨slot₀, hslot₀, hclient₀⟩ := not_not.mp ((hS.closed_iff c hc).not.mp hopen)
  have hc' := handles_append [x] hc
  have hstep := htrail.step_last c.session
  by_cases hreg : ∃ g, x.act = .register g
  · obtain ⟨g, hact⟩ := hreg
    have hname := htrail.client_ne hc g hact
    refine iff_of_false ?_ ?_
    · -- nobody is admitted to a session that somebody holds
      rw [hact] at hstep
      have hsame := hstep.register_aside fun c' hout hid => by
        cases (htrail.free_before hact hout).symm.trans (hid ▸ hslot₀)
      rw [htrail.last.sound.closed_iff c hc', not_not]
      exact ⟨slot₀, (congrArg Place.slot hsame).trans hslot₀, hclient₀⟩
    · intro hfor
      cases hfor with
      | abandoned hact' hgone hout =>
          obtain ⟨-, -, hnew, -⟩ := htrail.admitted hact hout
          exact hname hnew.symm
      | deserted hfinds | overdue hfinds =>
          rw [hact] at hfinds
          cases hfinds
      | released hact' | unregistered hact' | stopped hact' => cases hact.symm.trans hact'
  · have hreg' : ∀ g, x.act ≠ .register g := fun g hact => hreg ⟨g, hact⟩
    rw [← ousts_iff hbefore hslot₀ hclient₀ hreg', ← hS.vacated_iff hslot₀ hreg']
    constructor
    · intro hclosed
      refine Option.eq_none_iff_forall_not_mem.mpr ?_
      intro slot hslot
      rcases hstep.slot hS hslot (fun _ => hbefore.marked) with
        ⟨⟨g, hact, -⟩, -⟩ | ⟨slot₁, hslot₁, hb⟩
      · exact hreg' g hact
      · obtain rfl := Option.some.inj (hslot₀.symm.trans hslot₁)
        exact (htrail.last.sound.closed_iff c hc').mp hclosed
          ⟨slot, hslot, hb.client.trans hclient₀⟩
    · exact htrail.last.closed_of_none hc'

/-- **Why connections end.** -/
theorem ends_iff (htrail : Trail (x :: earlier) h)
    (hc : c ∈ handles ((x :: earlier).map Moment.occurrence)) :
    x.ends c ↔ c.id ∉ x.before.closed ∧ EndsFor earlier x c := by
  rcases mem_handles hc with hout | hc'
  · rw [← htrail.ends_at_once_iff hout]
    exact ⟨fun hends => ⟨hends.1, hends⟩, And.right⟩
  · exact and_congr_right fun hopen => htrail.closed_after_iff hc' hopen

/-- Whoever was told that the connection is over holds no session. -/
theorem not_serves (htrail : Trail past h) (hclosed : c.id ∈ h.closed) : ¬ h.Serves c := by
  rintro ⟨slot, hslot, hclient⟩
  exact htrail.sound.not_closed_of_slot hslot (hclient ▸ hclosed)

/-- A connection that has ended does not end again, and holds no session any more. -/
theorem ended_for_good (htrail : Trail past h) :
    past.Pairwise fun y x => ∀ c : Client, x.ends c → ¬ y.ends c ∧ ¬ y.after.Serves c := by
  induction past generalizing h with
  | nil => exact .nil
  | cons y past ih =>
      have hbefore := htrail.uncons.1
      refine List.pairwise_cons.mpr ⟨?_, ih hbefore⟩
      rintro x hx c ⟨-, hclosed⟩
      obtain ⟨newer, older, rfl⟩ := List.append_of_mem hx
      have hover : c.id ∈ y.before.closed := hbefore.closed_since hclosed
      exact ⟨fun hends => hends.1 hover, htrail.last.not_serves (htrail.last.closed_after hover)⟩

/-- **A connection ends for its own reasons, and once.** At every point of every run:

A connection ends at a moment exactly if it is open then and one of these is the case. It is
released by its name, or its session is unregistered; its caller has gone away before it is
admitted; a delivery, or a look at the clients, finds that nobody listens, or a queue that is
full and that has been so, unread, for as long as it may; or the loop ends.

A release that names somebody who does not hold the session, and any release of a session
that nobody holds, is reported and does nothing else.

Nobody is told twice that the connection is over. Whoever has been told is not told again
later and never holds a session again. -/
theorem endings (htrail : Trail past h) :
    (∀ newer x older c, past = newer ++ x :: older →
      c ∈ handles ((x :: older).map Moment.occurrence) →
      (x.ends c ↔ c.id ∉ x.before.closed ∧ EndsFor older x c)) ∧
    (∀ id k, (∀ slot, Table.get? h.clients id = some slot → slot.client ≠ k) →
      h.release id (some k) = h.note (.noLiveClient id)) ∧
    (∀ id client, Table.get? h.clients id = none →
      h.release id client = h.note (.noLiveClient id)) ∧
    h.closed.Nodup ∧
    past.Pairwise fun y x => ∀ c : Client, x.ends c → ¬ y.ends c ∧ ¬ y.after.Serves c := by
  refine ⟨?_, ?_, ?_, htrail.told_once, htrail.ended_for_good⟩
  · rintro newer x older c rfl hc
    exact htrail.cut.ends_iff hc
  · intro id k hother
    refine h.release_stale fun slot hslot => ?_
    exact beq_eq_false_iff_ne.mpr (hother slot hslot).symm
  · intro id client hnone
    refine h.release_stale fun slot hslot => ?_
    cases hnone.symm.trans hslot

/-- A client lets its connection go and comes back. The same release comes once more, and
does nothing. -/
theorem endings_twice_released : ∃ newer x older h c, Trail (newer ++ x :: older) h ∧
    EndsFor older x c ∧ (Table.get? h.clients c.session).isSome = true ∧
    h.release c.session (some c.id) = h.note (.noLiveClient c.session) := by
  let c : Client := ⟨⟨1⟩, "S1", false, 0⟩
  have htrail := (((opened {} {} (by decide)).step (.register (.numbered 1 none none [.ok "S1"]))
    (by decide +kernel) (by decide +kernel)).step (.release c.session (some c.id)) trivial rfl).step
    (.register (.numbered 2 (some "S1") none [])) (by decide +kernel) (by decide +kernel)
  obtain ⟨newer, x, older, h, htrail, hc, hends, hholder⟩ : ∃ newer x older h,
      Trail (newer ++ x :: older) h ∧ c ∈ handles ((x :: older).map Moment.occurrence) ∧ x.ends c ∧
      (Table.get? h.clients "S1").map Slot.client = some ⟨2⟩ :=
    ⟨[_], _, [_], _, htrail, by decide +kernel, ⟨by decide +kernel, by decide +kernel⟩,
      by decide +kernel⟩
  obtain ⟨hreasons, hstale, -⟩ := endings htrail
  obtain ⟨slot, hslot, hclient⟩ := Option.map_eq_some_iff.mp hholder
  refine ⟨newer, x, older, h, c, htrail, ((hreasons newer x older c rfl hc).mp hends).2,
    Option.isSome_of_mem hslot, hstale "S1" ⟨1⟩ fun slot' hslot' => ?_⟩
  obtain rfl := Option.some.inj (hslot.symm.trans hslot')
  rw [hclient]
  decide

end Trail

end EventRelay
