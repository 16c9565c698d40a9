import EventRelay.Proofs.Stall

/-!
# The retention window

A session that has lost its client `Retires`: it stays as it is while its time to live
runs, whatever else happens, and may be gone only when that is over. So whether it is found
or given back is decided by the time that has passed since, and by nothing that came
between (`Hub.Sound.reclaims_iff`, `Trail.retires`).

A session that somebody holds never expires (`Trail.untouched`).
-/

namespace EventRelay

namespace Place

variable {p q : Place} {t t' : Terms} {m : Metadata} {d : Nat}

/-- What becomes of a session that lost its client at the time `d`, while nobody is
admitted to it. -/
inductive Retires (t : Terms) (m : Metadata) (d : Nat) : Place → Prop
  | kept {s : Session} (hidle : s.active = false) (hseen : s.lastSeen = d)
      (hmeta : s.metadata = m) :
      Retires t m d ⟨some s, none⟩
  | gone (hlate : t.sessions.ttl < t.now - d) : Retires t m d ⟨none, none⟩

theorem Retires.slot_eq_none (hp : p.Retires t m d) : p.slot = none := by
  cases hp <;> rfl

theorem Retires.session (hp : p.Retires t m d) {s : Session} (hs : p.session = some s) :
    s.active = false ∧ s.lastSeen = d ∧ s.metadata = m := by
  cases hp with
  | kept hidle hseen hmeta =>
      obtain rfl := Option.some.inj hs
      exact ⟨hidle, hseen, hmeta⟩
  | gone => cases hs

theorem Retires.later (hp : p.Retires t m d) (hsessions : t'.sessions = t.sessions)
    (hnow : t.now ≤ t'.now) : p.Retires t' m d := by
  cases hp with
  | kept hidle hseen hmeta => exact .kept hidle hseen hmeta
  | gone hlate =>
      refine .gone ?_
      rw [hsessions]
      omega

/-- A session goes on as it was, or ends because its time is over. -/
theorem Retires.continues (hp : p.Retires t m d) (hgoes : p.Continues t q) (hheld : q.Held)
    (hlasts : ∀ s, p.session = some s → s.expired t.sessions.ttl t.now = false →
      q.session.isSome = true) : q.Retires t m d := by
  obtain ⟨session, slot⟩ := q
  have hfree : slot = none := by
    cases hslot : slot with
    | none => rfl
    | some slot' =>
        have hslot' := hgoes.slot (by rw [hslot]; rfl)
        rw [hp.slot_eq_none] at hslot'
        cases hslot'
  subst hfree
  cases hsession : session with
  | none =>
      cases hp with
      | @kept s hidle hseen hmeta =>
          refine .gone ?_
          by_contra hearly
          have hkept := hlasts s rfl (by simp [Session.expired, hseen, hearly])
          simp [hsession] at hkept
      | gone hlate => exact .gone hlate
  | some s' =>
      subst hsession
      obtain ⟨s, hs, hmeta', hseen'⟩ := hgoes.session s' rfl
      have hidle' : s'.active = false := by
        rw [← Bool.not_eq_true]
        intro hactive
        cases hheld.mpr ⟨s', rfl, hactive⟩
      cases hp with
      | kept hidle hseen hmeta =>
          obtain rfl := Option.some.inj hs
          exact .kept hidle' ((hseen' rfl).trans hseen) (hmeta'.trans hmeta)
      | gone hlate => cases hs

/-! ## What lasts -/

theorem vacate_isSome (p : Place) (t : Terms) : (p.vacate t).session.isSome = p.session.isSome := by
  unfold vacate
  split
  · rfl
  · exact Option.isSome_map

theorem inspect_isSome (p : Place) (t : Terms) :
    (p.inspect t).session.isSome = p.session.isSome := by
  unfold inspect judge
  split
  · rfl
  · split
    · exact p.vacate_isSome t
    · rfl

theorem Course.isSome {keeps : Session → Session → Prop} {e : Event} {fs : List Fate}
    (hc : Course keeps e t fs p q) (hp : p.session.isSome = true) : q.session.isSome = true := by
  induction hc with
  | nil => exact hp
  | cons hmeets hcourse ih =>
      obtain ⟨s, hs⟩ := hmeets.session
      exact ih (by rw [hs]; rfl)

end Place

namespace Hub

variable {h : Hub} {id : SessionId} {a : Act} {o : Outcome} {q : Place} {hs : List Client}
  {g : Registration}

/-- Only what has expired is forgotten. -/
theorem Step.lasts (hstep : h.Step id a o q) {s : Session} (hs : (h.place id).session = some s)
    (hkept : s.expired h.terms.sessions.ttl h.terms.now = false) : q.session.isSome = true := by
  have hp : (h.place id).session.isSome = true := by rw [hs]; rfl
  have hexpire : ((h.place id).expire h.terms).session.isSome = true := by
    simp [Place.expire, hs, hkept]
  cases hstep with
  | aside => exact hp
  | reclaimed =>
      obtain ⟨s', hs', -⟩ := Place.answer_session _ _ _ h.terms
      rw [hs']
      rfl
  | created =>
      obtain ⟨s', hs', -⟩ := Place.answer_session _ _ _ h.terms
      rw [hs']
      rfl
  | dispatched hs hlen hcourse => exact hcourse.isSome hp
  | inspected => rwa [Place.inspect_isSome]
  | read hc => rwa [Place.read_session]
  | left hc => rwa [Place.leave_session]
  | released hslot hclient => rwa [Place.vacate_isSome]
  | stopped => rwa [Place.vacate_isSome]
  | swept => exact hexpire
  | looked => exact hexpire

/-- A session that is left without a client was without one before, or its retention
begins. -/
theorem Step.lastSeen (hstep : h.Step id a o q) (hslot : q.slot = none) {s' : Session}
    (hs' : q.session = some s') : s'.lastSeen = h.now ∨ (h.place id).slot = none ∧
      ∃ s, (h.place id).session = some s ∧ s'.lastSeen = s.lastSeen := by
  by_cases hadmits : ∃ c, o = .admitted c ∧ c.session = id
  · -- whoever was admitted here was disconnected at once
    obtain ⟨c, rfl, hid⟩ := hadmits
    obtain ⟨g, rfl⟩ : ∃ g, a = .register g := by
      cases hstep with
      | aside hadmits => exact absurd hid (hadmits c rfl)
      | reclaimed => exact ⟨_, rfl⟩
      | created => exact ⟨_, rfl⟩
    obtain ⟨s, rfl, -⟩ := hstep.admitted hid
    unfold Place.answer at hslot hs'
    split at hs'
    · obtain rfl := Option.some.inj hs'
      exact Or.inl rfl
    · next habandoned =>
        rw [if_neg habandoned] at hslot
        cases hslot
  · obtain ⟨s, hs, -, hseen⟩ :=
      (hstep.continues fun c hout hid => hadmits ⟨c, hout, hid⟩).session s' hs'
    have hseen := hseen hslot
    cases hslot₀ : (h.place id).slot with
    | none =>
        rw [hslot₀] at hseen
        exact Or.inr ⟨rfl, s, hs, hseen⟩
    | some slot =>
        rw [hslot₀] at hseen
        exact Or.inl hseen

/-! ## Claims -/

theorem claim?_iff : h.claim? g = some id ↔ g.candidate = some id ∧ Table.get? h.clients id = none ∧
    h.registry.claimable id g.metadata = true := by
  rw [claim?, Option.filter_eq_some_iff, Bool.and_eq_true, Bool.not_eq_true', Table.contains,
    Option.isSome_eq_false_iff, Option.isNone_iff_eq_none]

/-- A registration gets the session back that its claim names, if that may be claimed. -/
theorem Sound.reclaims_iff (hS : h.Sound hs) (hfault : (h.act (.register g)).2.isFault = false) :
    (∃ c, (h.act (.register g)).2 = .admitted c ∧ c.session = id ∧ c.reconnected = true)
      ↔ h.claim? g = some id := by
  have hok := Outcome.ne_fault hfault
  constructor
  · rintro ⟨c, hout, hid, hback⟩
    have hstep := hS.step (.register g) hfault id
    rw [hout] at hstep
    obtain ⟨s, -, -, -, ⟨-, hclaim, -⟩ | ⟨hnew, -⟩⟩ := hstep.admitted hid
    · exact hclaim
    · cases hback.symm.trans hnew
  · intro hclaim
    have hadm := accept_cases h g (fun _ => hS.free) (register_answer h g ▸ hok)
    have hanswer := register_answer h g
    show ∃ c, Outcome.ofAnswer (h.register g).2 = .admitted c ∧ _
    rw [hanswer]
    generalize h.accept g = result at hadm
    cases hadm with
    | refused hnone => cases hclaim.symm.trans hnone
    | reclaimed hclaim' =>
        obtain rfl := Option.some.inj (hclaim.symm.trans hclaim')
        exact ⟨_, rfl, rfl, rfl⟩
    | created hnone => cases hclaim.symm.trans hnone

end Hub

namespace Registry

variable (r : Registry)

theorem lookup_snd (id : SessionId) :
    (r.lookup id).2 = (r.find? id).filter fun s => !r.isExpired s := by
  unfold lookup
  cases r.find? id with
  | none => rfl
  | some s => cases hexpired : r.isExpired s <;> simp [hexpired, Option.filter]

end Registry

/-- While a session retires it is found, and may be claimed, for as long as it lives. -/
theorem Place.Retires.window {h : Hub} {id : SessionId} {m : Metadata} {d : Nat}
    (hp : (h.place id).Retires h.terms m d) :
    ((h.registry.lookup id).2.isSome = true ↔ h.now - d ≤ h.registry.config.ttl) ∧
    ∀ claimant, (h.registry.config.strictBinding = true → claimant.userAgent = m.userAgent) →
      (h.registry.claimable id claimant = true ↔ h.now - d ≤ h.registry.config.ttl) := by
  have hexpired : ∀ s : Session, s.active = false → s.lastSeen = d →
      (h.registry.isExpired s = false ↔ h.now - d ≤ h.registry.config.ttl) := by
    rintro s hidle rfl
    simp [Registry.isExpired, Session.expired, hidle, Hub.now]
  rw [Registry.lookup_snd]
  generalize hplace : h.place id = p at hp
  cases hp with
  | @kept s hidle hseen hmeta =>
      have hs : h.registry.find? id = some s := congrArg Place.session hplace
      refine ⟨by simp [hs, hexpired s hidle hseen], ?_⟩
      intro claimant hbinding
      have hbound : (!h.registry.config.strictBinding || s.metadata.userAgent == claimant.userAgent)
          = true := by
        cases hstrict : h.registry.config.strictBinding with
        | false => rfl
        | true => simp [hmeta, hbinding hstrict]
      simp [Registry.claimable, hs, hidle, hbound, hexpired s hidle hseen]
  | gone hlate =>
      have hs : h.registry.find? id = none := congrArg Place.session hplace
      have hover : ¬ h.now - d ≤ h.registry.config.ttl := Nat.not_le_of_lt hlate
      refine ⟨by simp [hs, hover], ?_⟩
      intro claimant hbinding
      simp [Registry.claimable, hs, hover]

namespace Trail

variable {newer older past : List Moment} {y : Moment} {h : Hub} {c : Client}

theorem mem_handles (hc : c ∈ handles ((y :: older).map Moment.occurrence)) :
    y.outcome = .admitted c ∨ c ∈ handles (older.map Moment.occurrence) := by
  obtain ⟨occ, hocc, hhandle⟩ := List.mem_filterMap.mp hc
  rcases List.mem_cons.mp hocc with rfl | hocc
  · exact Or.inl (Moment.handle?_eq_some.mp hhandle)
  · exact Or.inr (List.mem_filterMap.mpr ⟨occ, hocc, hhandle⟩)

/-- A connection that had not ended before the last act held its session then. -/
theorem held_before (htrail : Trail (y :: older) h) (hc : c ∈ handles (older.map Moment.occurrence))
    (hends : y.ends c) : y.before.Serves c := by
  by_contra hno
  exact hends.1 ((htrail.uncons.1.sound.closed_iff c hc).mpr hno)

/-- Where a connection has ended nobody holds the session, and its retention begins. -/
theorem ended (htrail : Trail (y :: older) h)
    (hc : c ∈ handles ((y :: older).map Moment.occurrence))
    (hends : y.ends c) : ∃ s, y.after.place c.session = ⟨some s, none⟩ ∧ s.active = false ∧
      s.lastSeen = y.time := by
  rcases mem_handles hc with hout | hc'
  · -- the caller had gone away
    obtain ⟨g, hact⟩ := Moment.registration hout
    obtain ⟨s, hplace, -⟩ := htrail.admitted hact hout
    cases hstays : g.abandoned with
    | false => exact absurd hends.2 (htrail.not_closed_after hact hout hstays)
    | true =>
        rw [Place.answer, if_pos hstays] at hplace
        exact ⟨_, hplace, rfl, rfl⟩
  · obtain ⟨slot₀, hslot₀, hclient₀⟩ := htrail.held_before hc' hends
    have hbefore := htrail.uncons.1
    have hlast := htrail.last
    have hstep := htrail.step_last c.session
    have hgone : ¬ y.after.Serves c := (hlast.sound.closed_iff c hc).mp hends.2
    have hfree : Table.get? y.after.clients c.session = none := by
      cases hslot : Table.get? y.after.clients c.session with
      | none => rfl
      | some slot =>
          rcases hstep.slot hbefore.sound hslot (fun _ => hbefore.marked) with
            ⟨-, hnone, -⟩ | ⟨slot₁, hslot₁, hb⟩
          · cases hnone.symm.trans hslot₀
          · obtain rfl := Option.some.inj (hslot₀.symm.trans hslot₁)
            exact absurd ⟨slot, hslot, hb.client.trans hclient₀⟩ hgone
    obtain ⟨s₀, hs₀, hactive₀⟩ := (hbefore.sound.place c.session).held.mp
      (show (Table.get? y.before.clients c.session).isSome = true by rw [hslot₀]; rfl)
    obtain ⟨s, hs⟩ := Option.isSome_iff_exists.mp
      (hstep.lasts hs₀ (by simp [Session.expired, hactive₀]))
    refine ⟨s, by rw [← hs, ← hfree]; rfl, ?_, ?_⟩
    · rw [← Bool.not_eq_true]
      intro hactive
      have hheld := (hlast.sound.place c.session).held.mpr ⟨s, hs, hactive⟩
      rw [show (y.after.place c.session).slot = none from hfree] at hheld
      cases hheld
    · rcases hstep.lastSeen hfree hs with hseen | ⟨hnone, -⟩
      · exact hseen
      · cases hnone.symm.trans hslot₀

/-- A session retires from where its connection has ended until somebody is admitted to it. -/
theorem retires (htrail : Trail (newer ++ y :: older) h)
    (hc : c ∈ handles ((y :: older).map Moment.occurrence)) (hends : y.ends c)
    (hfree : ∀ z ∈ newer, ∀ c', z.outcome = .admitted c' → c'.session ≠ c.session) :
    ∃ s, y.after.registry.find? c.session = some s ∧
      (h.place c.session).Retires h.terms s.metadata y.time := by
  obtain ⟨s, hplace, hidle, hseen⟩ := htrail.cut.ended hc hends
  refine ⟨s, congrArg Place.session hplace, ?_⟩
  revert hfree
  refine htrail.since (P := fun newer h =>
    (∀ z ∈ newer, ∀ c', z.outcome = .admitted c' → c'.session ≠ c.session) →
      (h.place c.session).Retires h.terms s.metadata y.time) ?_ ?_ ?_
  · intro _
    rw [hplace]
    exact .kept hidle hseen rfl
  · intro z newer hz ih hfree
    obtain ⟨hnow, hrest⟩ := List.forall_mem_cons.mp hfree
    have hstep := hz.step_last c.session
    have hgone := (ih hrest).continues (hstep.continues hnow) (hz.sound.place c.session).held
      fun s hs hkept => hstep.lasts hs hkept
    have hterms := hz.terms_after
    rw [hterms]
    refine hgone.later rfl ?_
    cases z.act with
    | wait span => exact Nat.le_add_right _ span
    | _ => exact Nat.le_refl _
  · intro newer h h' hu ih hfree
    rw [hu.place, hu.terms]
    exact ih hfree

/-- Whoever has not been disconnected holds the session. -/
theorem held (htrail : Trail past h) (hc : c ∈ handles (past.map Moment.occurrence))
    (hopen : c.id ∉ h.closed) : ∃ s, h.registry.find? c.session = some s ∧ s.active = true := by
  have hS := htrail.sound
  have hserves : h.Serves c := by
    by_contra hno
    exact hopen ((hS.closed_iff c hc).mpr hno)
  obtain ⟨slot, hslot, -⟩ := hserves
  exact (hS.place c.session).held.mp
    (show (Table.get? h.clients c.session).isSome = true by rw [hslot]; rfl)

/-- A session that somebody holds is left alone when others are forgotten. -/
theorem untouched (htrail : Trail past h) {id : SessionId} {s : Session}
    (hs : h.registry.find? id = some s) (hactive : s.active = true) :
    h.registry.sweep.1.find? id = some s ∧
      ∀ key, (h.registry.lookup key).1.find? id = some s := by
  have hkept : (h.registry.find? id).filter (fun s => !h.registry.isExpired s) = some s := by
    simp [hs, Registry.isExpired, Session.expired, hactive]
  refine ⟨?_, ?_⟩
  · rw [Registry.find?_sweep _ htrail.sound.sessions_nodup, hkept]
  · intro key
    rw [Registry.find?_lookup, hkept, hs, ite_self]

end Trail

end EventRelay
