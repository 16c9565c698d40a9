import EventRelay.Proofs.Isolation
import EventRelay.Proofs.Ledger

/-!
# When a sweep can be seen

A session that has expired stays in the registry until somebody looks it up or a sweep comes
by, and until then it is out of reach: it is not found, not given back and not claimed
(`Registry.Lapsed`). Two registries of which the second was swept more often differ in such
sessions only (`Registry.Pruned`), so they answer alike, and no call tells them apart but one.
Disconnecting a session starts its retention anew whether it had expired or not, and so brings
back a session that no sweep has come to (`Registry.expired_session_revived`).
`Registry.sweeps_unseen_iff` says that sweeps are invisible exactly as long as this does not
happen.
-/

namespace EventRelay.Registry

variable {r r' : Registry} {id : SessionId} {s : Session} {c : Call} {cs cs' : List Call}

/-! ## One session, one call -/

namespace Call

/-- The ids that the random source answers with during the call. -/
def drawn : Call → List SessionId
  | .create _ draws => draws.filterMap Except.toOption
  | _ => []

/-- The time after a call that is made at a given time. -/
def clock (now : Nat) : Call → Nat
  | .wait span => now + span
  | _ => now

/-- What a call makes of the session `id`, if nothing that is drawn is taken. -/
def entry (t : Config) (now : Nat) (id : SessionId) (o : Option Session) : Call → Option Session
  | .create m draws =>
    match draws with
    | .ok key :: _ =>
      if id = key ∧ Limits.bufferFault? t.bufferCapacity = none then
        some (.fresh t.bufferCapacity m now)
      else o
    | _ => o
  | .look key => if id = key then o.filter fun s => !s.expired t.ttl now else o
  | .reclaim key last =>
    if id = key then (o.filter fun s => !s.expired t.ttl now).map (·.reclaim last now) else o
  | .buffer key e => if id = key then o.map fun s => if s.active then s else (s.miss e).1 else o
  | .bufferAll e => o.map fun s => if s.active then s else (s.miss e).1
  | .disconnect key => if id = key then o.map (·.disconnect now) else o
  | .remove key => if id = key then none else o
  | .sweep => o.filter fun s => !s.expired t.ttl now
  | .ask _ _ | .wait _ => o

end Call

theorem mem_drawn {m : Metadata} {draws : List Draw} :
    id ∈ (Call.create m draws).drawn ↔ .ok id ∈ draws := by
  simp only [Call.drawn, List.mem_filterMap]
  constructor
  · rintro ⟨draw, hmem, hdraw⟩
    cases draw with
    | error reason => cases hdraw
    | ok key =>
        obtain rfl := Option.some.inj hdraw
        exact hmem
  · intro hmem
    exact ⟨.ok id, hmem, rfl⟩

theorem find?_reclaim (key : SessionId) (last : Option EventId) :
    (r.reclaim key last).1.find? id
      = if id = key then ((r.find? id).filter fun s => !r.isExpired s).map (·.reclaim last r.now)
        else r.find? id := by
  split
  · next hid =>
      subst hid
      have hsnd := r.lookup_snd id
      cases hs : (r.find? id).filter fun s => !r.isExpired s with
      | none =>
          have hfst := r.find?_lookup id id
          rw [if_pos rfl, hs] at hfst
          rw [hs] at hsnd
          unfold reclaim
          generalize r.lookup id = found at hsnd hfst
          obtain ⟨r', o⟩ := found
          obtain rfl : o = none := hsnd
          exact hfst
      | some s =>
          obtain ⟨hsome, hlives⟩ := Option.filter_eq_some_iff.mp hs
          rw [Hub.reclaim_eq r hsome (by simpa using hlives), find?_put, if_pos rfl]
          rfl
  · next hne => exact find?_reclaim_ne hne last

/-- A session whose id is not drawn is not made. -/
theorem find?_create_ne {m : Metadata} {draws : List Draw}
    (hdrawn : id ∉ (Call.create m draws).drawn) :
    (r.create m draws).1.find? id = r.find? id := by
  obtain ⟨-, -, ⟨o, -, hsame⟩ | ⟨key, -, hok, hput⟩⟩ := Hub.create_cases m draws r
  · rw [find?, hsame]
    rfl
  · have hne : id ≠ key := by
      rintro rfl
      exact hdrawn (mem_drawn.mpr (Hub.create_draws hok))
    rw [find?, hput, Table.get?_put, if_neg hne]
    rfl

/-- The first draw is taken if it is free. -/
theorem find?_create_fresh (m : Metadata) {draws : List Draw}
    (hfresh : ∀ key ∈ (Call.create m draws).drawn, r.find? key = none) :
    (r.create m draws).1.find? id = (Call.create m draws).entry r.config r.now id (r.find? id) := by
  cases draws with
  | nil => rfl
  | cons draw rest =>
      cases draw with
      | error reason => rfl
      | ok key =>
          have hfree := hfresh key (mem_drawn.mpr (List.mem_cons_self ..))
          rw [create, hfree, Call.entry]
          cases hfault : Limits.bufferFault? r.config.bufferCapacity with
          | some fault => simp
          | none =>
              show (r.put key _).find? id = _
              rw [find?_put]
              simp

/-- What a call makes of each session. -/
theorem find?_call (hnd : (Table.ids r.sessions).Nodup)
    (hfresh : ∀ key ∈ c.drawn, r.find? key = none) (id : SessionId) :
    (r.call c).find? id = c.entry r.config r.now id (r.find? id) := by
  cases c with
  | create m draws => exact find?_create_fresh m hfresh
  | look key => exact r.find?_lookup key id
  | ask key claimant => rfl
  | reclaim key last => exact find?_reclaim key last
  | buffer key e => exact r.find?_buffer key id e
  | bufferAll e => exact r.find?_bufferAll id e
  | disconnect key => exact r.find?_disconnect key id
  | remove key => exact Table.get?_erase key id r.sessions
  | sweep => exact r.find?_sweep hnd id
  | wait span => rfl

theorem now_call (r : Registry) (c : Call) : (r.call c).now = c.clock r.now := by
  cases c with
  | create m draws => exact (sameTime_create m draws r).1
  | look key => exact (r.sameTime_lookup key).1
  | reclaim key last => exact (r.sameTime_reclaim key last).1
  | buffer key e => exact (r.sameTime_buffer key e).1
  | disconnect key => exact (r.sameTime_disconnect key).1
  | sweep => exact r.sameTime_sweep.1
  | _ => rfl

theorem nodup_call (hnd : (Table.ids r.sessions).Nodup) (c : Call) :
    (Table.ids (r.call c).sessions).Nodup := by
  have hlookup : ∀ key, (Table.ids (r.lookup key).1.sessions).Nodup := by
    intro key
    unfold lookup
    split
    · exact hnd
    · split
      · exact Table.nodup_erase hnd key
      · exact hnd
  cases c with
  | create m draws =>
      obtain ⟨-, -, ⟨o, -, hsame⟩ | ⟨key, -, -, hput⟩⟩ := Hub.create_cases m draws r
      · rwa [call, hsame]
      · rw [call, hput]
        exact Table.nodup_put hnd key _
  | look key => exact hlookup key
  | reclaim key last =>
      have hlooked := hlookup key
      rw [call, reclaim]
      generalize r.lookup key = found at hlooked ⊢
      obtain ⟨r', o⟩ := found
      cases o with
      | none => exact hlooked
      | some s => exact Table.nodup_put hlooked key _
  | buffer key e => exact (Hub.ids_buffer r key e).symm ▸ hnd
  | bufferAll e => exact (Hub.ids_bufferAll r e).symm ▸ hnd
  | disconnect key => exact (Hub.ids_disconnect r key).symm ▸ hnd
  | remove key => exact Table.nodup_erase hnd key
  | sweep => exact r.nodup_sweep hnd
  | _ => exact hnd

/-- A session that is not there is not there after a call that does not draw its id. -/
theorem find?_call_none (hnd : (Table.ids r.sessions).Nodup) (hdrawn : id ∉ c.drawn)
    (hs : r.find? id = none) : (r.call c).find? id = none := by
  cases c with
  | create m draws => rw [call, find?_create_ne hdrawn, hs]
  | _ =>
      rw [find?_call hnd (by simp [Call.drawn]), hs]
      simp [Call.entry]

/-! ## Out of reach -/

/-- The session has expired, or there is none. -/
def Lapsed (r : Registry) (id : SessionId) : Prop := ∀ s, r.find? id = some s → r.isExpired s = true

/-- What the registry says of a session to whoever looks for it, comes back to it, or asks
whether it may be claimed. -/
structure Answers where
  found : Option Session
  back : Option EventId → Option (Session × List Event)
  claimable : Metadata → Bool

def answers (r : Registry) (id : SessionId) : Answers where
  found := (r.lookup id).2
  back last := (r.reclaim id last).2
  claimable claimant := r.claimable id claimant

/-- There is no such session. -/
def Answers.nothing : Answers := ⟨none, fun _ => none, fun _ => false⟩

theorem reclaim_snd (r : Registry) (id : SessionId) (last : Option EventId) :
    (r.reclaim id last).2 = ((r.find? id).filter fun s => !r.isExpired s).map fun s =>
      (s.reclaim last r.now, (s.reclaim last r.now).replay) := by
  cases hs : (r.find? id).filter fun s => !r.isExpired s with
  | none =>
      have hsnd := r.lookup_snd id
      rw [hs] at hsnd
      unfold reclaim
      generalize r.lookup id = found at hsnd
      obtain ⟨r', o⟩ := found
      obtain rfl : o = none := hsnd
      rfl
  | some s =>
      obtain ⟨hsome, hlives⟩ := Option.filter_eq_some_iff.mp hs
      rw [Hub.reclaim_eq r hsome (by simpa using hlives)]
      rfl

/-- A session that is out of reach is one that is not there, as far as anybody can tell. -/
theorem answers_eq_nothing_iff : r.answers id = .nothing ↔ r.Lapsed id := by
  constructor
  · intro hnothing s hs
    have hfound : (r.lookup id).2 = none := congrArg Answers.found hnothing
    rw [lookup_snd, hs, Option.filter_some] at hfound
    by_contra hlives
    simp [hlives] at hfound
  · intro hlapsed
    have hnone : (r.find? id).filter (fun s => !r.isExpired s) = none := by
      refine Option.filter_eq_none_iff.mpr fun s hs => ?_
      rw [hlapsed s hs]
      decide
    have hclaimable : ∀ claimant, r.claimable id claimant = false := by
      intro claimant
      unfold claimable
      split
      · rfl
      · next s hs => simp [hlapsed s hs]
    simp only [answers, lookup_snd, reclaim_snd, hnone, hclaimable, Option.map_none,
      Answers.nothing]

theorem isExpired_iff :
    r.isExpired s = true ↔ s.active = false ∧ r.config.ttl < r.now - s.lastSeen := by
  simp [isExpired, Session.expired]

/-- What a call leaves of an expired session was left alone, but for its buffer, unless the
call starts its retention anew. -/
theorem Call.entry_expired {t : Config} {now : Nat} (hexpired : s.expired t.ttl now = true)
    (hmade : ∀ m draws, c ≠ .create m draws) (hkept : c ≠ .disconnect id) {s' : Session}
    (hs' : c.entry t now id (some s) = some s') :
    s'.active = s.active ∧ s'.lastSeen = s.lastSeen := by
  have hgone : (some s).filter (fun s => !s.expired t.ttl now) = none := by
    rw [Option.filter_some, hexpired]
    rfl
  have hsame : some s = some s' → s'.active = s.active ∧ s'.lastSeen = s.lastSeen := by
    rintro ⟨⟩
    exact ⟨rfl, rfl⟩
  have hmissed : ∀ e, some (if s.active then s else (s.miss e).1) = some s' →
      s'.active = s.active ∧ s'.lastSeen = s.lastSeen := by
    intro e hs'
    split at hs'
    · exact hsame hs'
    · obtain rfl := Option.some.inj hs'
      exact ⟨rfl, rfl⟩
  cases c with
  | create m draws => exact absurd rfl (hmade m draws)
  | look key =>
      rw [entry, hgone] at hs'
      split at hs'
      · cases hs'
      · exact hsame hs'
  | reclaim key last =>
      rw [entry, hgone] at hs'
      split at hs'
      · cases hs'
      · exact hsame hs'
  | buffer key e =>
      rw [entry] at hs'
      split at hs'
      · exact hmissed e hs'
      · exact hsame hs'
  | bufferAll e => exact hmissed e hs'
  | disconnect key =>
      rw [entry, if_neg fun h : id = key => hkept (h ▸ rfl)] at hs'
      exact hsame hs'
  | remove key =>
      rw [entry] at hs'
      split at hs'
      · cases hs'
      · exact hsame hs'
  | sweep =>
      rw [entry, hgone] at hs'
      cases hs'
  | ask key claimant => exact hsame hs'
  | wait span => exact hsame hs'

/-- A session that is out of reach stays so, unless its retention starts anew or its id is
drawn again. -/
theorem Lapsed.call (hlapsed : r.Lapsed id) (hnd : (Table.ids r.sessions).Nodup)
    (hdrawn : id ∉ c.drawn) (hkept : c = .disconnect id → r.find? id = none) :
    (r.call c).Lapsed id := by
  intro s' hs'
  cases hs : r.find? id with
  | none => cases (find?_call_none hnd hdrawn hs).symm.trans hs'
  | some s =>
      obtain ⟨hidle, hlate⟩ := isExpired_iff.mp (hlapsed s hs)
      have hkept' : c ≠ .disconnect id := fun h => by cases hs.symm.trans (hkept h)
      have hnow : r.now ≤ (r.call c).now := by
        rw [now_call]
        cases c with
        | wait span => exact Nat.le_add_right ..
        | _ => exact Nat.le_refl _
      have hafter : s'.active = s.active ∧ s'.lastSeen = s.lastSeen := by
        by_cases hmade : ∃ m draws, c = .create m draws
        · obtain ⟨m, draws, rfl⟩ := hmade
          obtain rfl : s = s' :=
            Option.some.inj (hs.symm.trans ((find?_create_ne hdrawn).symm.trans hs'))
          exact ⟨rfl, rfl⟩
        · have hmade' : ∀ m draws, c ≠ .create m draws := fun m draws h => hmade ⟨m, draws, h⟩
          have hnone : c.drawn = [] := by
            cases c with
            | create m draws => exact absurd rfl (hmade' m draws)
            | _ => rfl
          rw [find?_call hnd (by simp [hnone]), hs] at hs'
          exact Call.entry_expired (hlapsed s hs) hmade' hkept' hs'
      rw [isExpired_iff, call_config, hafter.1, hafter.2]
      exact ⟨hidle, by omega⟩

/-- A session whose retention starts anew is within reach. -/
theorem not_lapsed_disconnect (hs : r.find? id = some s) :
    ¬ (r.call (.disconnect id)).Lapsed id := by
  intro hlapsed
  have hfound : (r.disconnect id).find? id = some (s.disconnect r.now) := by
    rw [find?_disconnect, if_pos rfl, hs]
    rfl
  obtain ⟨-, hlate⟩ := isExpired_iff.mp (hlapsed _ hfound)
  have hnow : (r.disconnect id).now = r.now := (r.sameTime_disconnect id).1
  have hseen : (s.disconnect r.now).lastSeen = r.now := rfl
  rw [call, hnow, hseen] at hlate
  omega

/-! ## More sweeps -/

/-- The second list has the same calls as the first, and more sweeps. -/
inductive Call.Swept : List Call → List Call → Prop
  | nil : Swept [] []
  | same (c : Call) {cs cs' : List Call} (hswept : Swept cs cs') : Swept (c :: cs) (c :: cs')
  | more {cs cs' : List Call} (hswept : Swept cs cs') : Swept cs (.sweep :: cs')

/-- The second registry is the first one without some of the sessions that have expired. -/
structure Pruned (r r' : Registry) : Prop where
  config : r'.config = r.config
  now : r'.now = r.now
  nodup : (Table.ids r.sessions).Nodup
  nodup' : (Table.ids r'.sessions).Nodup
  find : ∀ id, r'.find? id = r.find? id ∨ r'.find? id = none ∧ r.Lapsed id

theorem Pruned.refl (hnd : (Table.ids r.sessions).Nodup) : r.Pruned r :=
  ⟨rfl, rfl, hnd, hnd, fun _ => Or.inl rfl⟩

theorem Pruned.isExpired (hp : r.Pruned r') (s : Session) : r'.isExpired s = r.isExpired s := by
  rw [Registry.isExpired, hp.config, hp.now]
  rfl

/-- Sessions that are out of reach are not missed. -/
theorem Pruned.answers (hp : r.Pruned r') (id : SessionId) : r'.answers id = r.answers id := by
  rcases hp.find id with hsame | ⟨hnone, hlapsed⟩
  · have hexpired : r'.isExpired = r.isExpired := funext hp.isExpired
    simp only [Registry.answers, lookup_snd, reclaim_snd, claimable, hsame, hexpired, hp.config,
      hp.now]
  · rw [answers_eq_nothing_iff.mpr hlapsed, answers_eq_nothing_iff]
    intro s hs
    cases hnone.symm.trans hs

/-- One more sweep of the second registry. -/
theorem Pruned.sweep (hp : r.Pruned r') : r.Pruned (r'.call .sweep) := by
  refine ⟨(call_config r' _).trans hp.config, (now_call r' _).trans hp.now, hp.nodup,
    nodup_call hp.nodup' _, fun id => ?_⟩
  have hfind : (r'.call .sweep).find? id = (r'.find? id).filter fun s => !r'.isExpired s :=
    r'.find?_sweep hp.nodup' id
  rw [hfind]
  rcases hp.find id with hsame | ⟨hnone, hlapsed⟩
  · rw [hsame]
    cases hs : r.find? id with
    | none => exact Or.inl rfl
    | some s =>
        rw [Option.filter_some, hp.isExpired]
        cases hexpired : r.isExpired s with
        | false => exact Or.inl rfl
        | true =>
            refine Or.inr ⟨rfl, ?_⟩
            intro s' hs'
            exact Option.some.inj (hs.symm.trans hs') ▸ hexpired
  · rw [hnone]
    exact Or.inr ⟨rfl, hlapsed⟩

/-- The call disconnects a session that has expired. -/
def Revives (r : Registry) (c : Call) : Prop :=
  ∃ id s, c = .disconnect id ∧ r.find? id = some s ∧ r.isExpired s = true

/-- A call of both registries, unless it tells them apart. -/
theorem Pruned.call (hp : r.Pruned r') (hfresh : ∀ id ∈ c.drawn, r.find? id = none)
    (hkept : ¬ r.Revives c) : (r.call c).Pruned (r'.call c) := by
  have hfresh' : ∀ id ∈ c.drawn, r'.find? id = none := by
    intro id hid
    rcases hp.find id with hsame | ⟨hnone, -⟩
    · exact hsame.trans (hfresh id hid)
    · exact hnone
  refine ⟨?_, ?_, nodup_call hp.nodup c, nodup_call hp.nodup' c, fun id => ?_⟩
  · rw [call_config, call_config, hp.config]
  · rw [now_call, now_call, hp.now]
  · by_cases hsame : r'.find? id = r.find? id
    · refine Or.inl ?_
      rw [find?_call hp.nodup' hfresh', find?_call hp.nodup hfresh, hp.config, hp.now, hsame]
    · obtain ⟨hnone, hlapsed⟩ := (hp.find id).resolve_left hsame
      have hdrawn : id ∉ c.drawn := fun hid => hsame (hnone.trans (hfresh id hid).symm)
      refine Or.inr ⟨find?_call_none hp.nodup' hdrawn hnone, hlapsed.call hp.nodup hdrawn ?_⟩
      rintro rfl
      refine Option.eq_none_iff_forall_not_mem.mpr fun s hs => ?_
      exact hkept ⟨id, s, rfl, hs, hlapsed s hs⟩

/-! ## Any number of calls -/

/-- The registry after some calls. -/
def after (r : Registry) (cs : List Call) : Registry := cs.foldl call r

theorem after_append (r : Registry) (cs cs' : List Call) :
    r.after (cs ++ cs') = (r.after cs).after cs' := List.foldl_append

theorem nodup_after (hnd : (Table.ids r.sessions).Nodup) (cs : List Call) :
    (Table.ids (r.after cs).sessions).Nodup := by
  induction cs generalizing r with
  | nil => exact hnd
  | cons c cs ih => exact ih (nodup_call hnd c)

theorem Call.Swept.prepend (pre : List Call) (hswept : Call.Swept cs cs') :
    Call.Swept (pre ++ cs) (pre ++ cs') := by
  induction pre with
  | nil => exact hswept
  | cons c pre ih => exact .same c ih

theorem Pruned.after (hp : r.Pruned r') (hswept : Call.Swept cs cs')
    (hdrawn : (cs.flatMap Call.drawn).Nodup)
    (hfresh : ∀ id ∈ cs.flatMap Call.drawn, r.find? id = none)
    (hkept : ∀ pre c suf, cs = pre ++ c :: suf → ¬ (r.after pre).Revives c) :
    (r.after cs).Pruned (r'.after cs') := by
  induction hswept generalizing r r' with
  | nil => exact hp
  | @same c cs cs' hswept ih =>
      rw [List.flatMap_cons] at hdrawn hfresh
      obtain ⟨-, hrest, hapart⟩ := List.nodup_append'.mp hdrawn
      refine ih (hp.call ?_ (hkept [] c cs rfl)) hrest ?_ ?_
      · exact fun id hid => hfresh id (List.mem_append_left _ hid)
      · intro id hid
        exact find?_call_none hp.nodup (fun hid' => hapart hid' hid)
          (hfresh id (List.mem_append_right _ hid))
      · rintro pre c' suf rfl
        exact hkept (c :: pre) c' suf rfl
  | more hswept ih => exact ih hp.sweep hdrawn hfresh hkept

theorem Lapsed.after (hlapsed : r.Lapsed id) (hnd : (Table.ids r.sessions).Nodup)
    (hdrawn : id ∉ cs.flatMap Call.drawn)
    (hkept : ∀ pre suf, cs = pre ++ .disconnect id :: suf → (r.after pre).find? id = none) :
    (r.after cs).Lapsed id := by
  induction cs generalizing r with
  | nil => exact hlapsed
  | cons c cs ih =>
      rw [List.flatMap_cons, List.mem_append, not_or] at hdrawn
      refine ih (hlapsed.call hnd hdrawn.1 ?_) (nodup_call hnd c) hdrawn.2 ?_
      · rintro rfl
        exact hkept [] cs rfl
      · rintro pre suf rfl
        exact hkept (c :: pre) suf rfl

/-- Where an expired session is disconnected, one sweep more is seen. -/
theorem answers_swept_ne (hnd : (Table.ids r.sessions).Nodup) (hs : r.find? id = some s)
    (hexpired : r.isExpired s = true) :
    (r.after [.sweep, .disconnect id]).answers id ≠ (r.after [.disconnect id]).answers id := by
  intro hsame
  have hswept : (r.call .sweep).find? id = none := by
    rw [call, find?_sweep _ hnd, hs, Option.filter_some, hexpired]
    rfl
  have hnone : (r.after [.sweep, .disconnect id]).find? id = none :=
    find?_call_none (nodup_call hnd .sweep) (c := .disconnect id) (by simp [Call.drawn]) hswept
  have hlapsed : (r.after [.sweep, .disconnect id]).Lapsed id := by
    intro s' hs'
    cases hnone.symm.trans hs'
  rw [answers_eq_nothing_iff.mpr hlapsed] at hsame
  exact not_lapsed_disconnect hs (answers_eq_nothing_iff.mp hsame.symm)

/-- **When a sweep can be seen.** Let no id be drawn that is taken or was drawn before. Then
sweeps that are put in at any points change no later answer about any session, at any point of
the calls, exactly if no session is ever disconnected after it has expired. And a session that
has expired, or is not there, stays out of reach exactly if it is not disconnected while the
registry still has it. -/
theorem sweeps_unseen_iff (hnd : (Table.ids r.sessions).Nodup)
    (hdrawn : (cs.flatMap Call.drawn).Nodup)
    (hfresh : ∀ id ∈ cs.flatMap Call.drawn, r.find? id = none) :
    ((∀ pre suf pre', cs = pre ++ suf → Call.Swept pre pre' →
        ∀ id, (r.after pre').answers id = (r.after pre).answers id) ↔
      ∀ pre c suf, cs = pre ++ c :: suf → ¬ (r.after pre).Revives c) ∧
    ∀ id, r.answers id = .nothing → id ∉ cs.flatMap Call.drawn →
      ((∀ pre suf, cs = pre ++ suf → (r.after pre).answers id = .nothing) ↔
        ∀ pre suf, cs = pre ++ .disconnect id :: suf → (r.after pre).find? id = none) := by
  refine ⟨⟨?_, ?_⟩, ?_⟩
  · rintro hunseen pre c suf rfl ⟨id, s, rfl, hs, hexpired⟩
    refine answers_swept_ne (nodup_after hnd pre) hs hexpired ?_
    rw [← after_append, ← after_append]
    refine hunseen (pre ++ [.disconnect id]) suf _ (by simp) ?_ id
    exact (Call.Swept.more (.same _ .nil)).prepend pre
  · rintro hkept pre suf pre' rfl hswept id
    rw [List.flatMap_append] at hdrawn hfresh
    refine ((Pruned.refl hnd).after hswept (List.nodup_append'.mp hdrawn).1 ?_ ?_).answers id
    · exact fun id hid => hfresh id (List.mem_append_left _ hid)
    · rintro pre c mid rfl
      exact hkept pre c (mid ++ suf) (by simp)
  · intro id hnothing hdrawn
    constructor
    · rintro hunseen pre suf rfl
      refine Option.eq_none_iff_forall_not_mem.mpr fun s hs => ?_
      have hlast := hunseen (pre ++ [.disconnect id]) suf (by simp)
      rw [after_append, answers_eq_nothing_iff] at hlast
      exact not_lapsed_disconnect hs hlast
    · rintro hkept pre suf rfl
      rw [List.flatMap_append, List.mem_append, not_or] at hdrawn
      refine answers_eq_nothing_iff.mpr
        ((answers_eq_nothing_iff.mp hnothing).after hnd hdrawn.1 ?_)
      rintro pre mid rfl
      exact hkept pre (mid ++ suf) (by simp)

/-- A registry without sessions. -/
def idle : Registry := { config := {} }

/-- A session is left, and expires. -/
def Call.lapsing : List Call := [.create {} [.ok "S"], .disconnect "S", .wait 300001]

theorem lapsing_expires : ∃ s, (idle.after Call.lapsing).find? "S" = some s ∧
    (idle.after Call.lapsing).isExpired s = true :=
  (Option.any_eq_true _ _).mp (by decide +kernel)

/-- Whether it was swept is not seen, though it is still there if it was not. -/
theorem sweeps_unseen_once : ∃ s, (idle.after Call.lapsing).find? "S" = some s ∧
    (idle.after Call.lapsing).isExpired s = true ∧
    (idle.after (Call.lapsing ++ [Call.sweep])).find? "S" = none ∧
    ∀ id, (idle.after (Call.lapsing ++ [Call.sweep])).answers id
      = (idle.after Call.lapsing).answers id := by
  obtain ⟨s, hs, hexpired⟩ := lapsing_expires
  have hswept : Call.Swept Call.lapsing (Call.lapsing ++ [Call.sweep]) := by
    simpa using (Call.Swept.more .nil).prepend Call.lapsing
  have hunseen := (@sweeps_unseen_iff idle Call.lapsing List.nodup_nil (by decide)
    (by decide)).1.mpr ?_ Call.lapsing [] _ rfl hswept
  · exact ⟨s, hs, hexpired, by decide +kernel, hunseen⟩
  · rintro pre c suf hcs ⟨id, s, rfl, hs, hexpired⟩
    have hactive : ∀ s ∈ (idle.after [.create {} [.ok "S"]]).find? "S", s.active = true := by
      decide +kernel
    rw [Call.lapsing] at hcs
    rcases pre with _ | ⟨a, _ | ⟨b, _ | ⟨d, pre⟩⟩⟩
    · cases hcs
    · cases hcs
      rw [isExpired_iff, hactive s hs] at hexpired
      cases hexpired.1
    · cases hcs
    · cases pre <;> cases hcs

/-- If it is disconnected once more it is found again, unless a sweep came between. -/
theorem expired_session_revived : (Call.lapsing.flatMap Call.drawn).Nodup ∧
    (idle.after Call.lapsing).answers "S" = .nothing ∧
    (idle.after (Call.lapsing ++ [Call.disconnect "S"])).answers "S" ≠ .nothing ∧
    Call.Swept (Call.lapsing ++ [Call.disconnect "S"])
      (Call.lapsing ++ [Call.sweep, Call.disconnect "S"]) ∧
    (idle.after (Call.lapsing ++ [Call.sweep, Call.disconnect "S"])).answers "S"
      ≠ (idle.after (Call.lapsing ++ [Call.disconnect "S"])).answers "S" := by
  obtain ⟨s, hs, hexpired⟩ := lapsing_expires
  refine ⟨by decide, answers_eq_nothing_iff.mpr fun s' hs' => ?_, ?_,
    (Call.Swept.more (.same _ .nil)).prepend Call.lapsing, ?_⟩
  · exact Option.some.inj (hs.symm.trans hs') ▸ hexpired
  · rw [Ne, answers_eq_nothing_iff, after_append]
    exact not_lapsed_disconnect hs
  · rw [after_append, after_append]
    exact answers_swept_ne (nodup_after (r := idle) List.nodup_nil Call.lapsing) hs hexpired

end EventRelay.Registry
