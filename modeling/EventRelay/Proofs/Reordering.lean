import EventRelay.Proofs.Sound

/-!
# The order of the tables

A table lists its entries in some order, and the hub goes through its tables in that order
when it offers an event to everyone, looks for stalled clients, keeps an event, forgets
sessions, or ends. `Hub.Reordered` relates two hubs that differ in the order of their entries
only. It is the invariant here: whatever goes through a table takes reordered hubs to
reordered hubs, and so does a message that names the same sessions in another order.

A place says what the tables hold under one id whatever their order (`Reordered.place`), and
the places after an operation are known from those before. What places do not say, the order
of disconnections cannot change either: `Hub.Sheds` says what is left of the table of clients,
who has been told, and what the count is.
-/

namespace EventRelay

namespace Table

variable {α : Type} {t t' : Table α}

theorem nodup_of_nodup_ids (hnd : (ids t).Nodup) : t.Nodup := List.Nodup.of_map _ hnd

theorem perm_ids (hperm : t.Perm t') : (ids t).Perm (ids t') := hperm.map _

/-- A look-up does not depend on the order of the entries. -/
theorem get?_eq_of_perm (hnd : (ids t).Nodup) (hperm : t.Perm t') (id : SessionId) :
    get? t' id = get? t id := by
  have hnd' : (ids t').Nodup := (perm_ids hperm).nodup_iff.mp hnd
  refine Option.ext fun a => ?_
  rw [← mem_iff_get? hnd, ← mem_iff_get? hnd', hperm.mem_iff]

/-- Tables that answer every look-up alike differ in the order of their entries only. -/
theorem perm_of_get?_eq (hnd : (ids t).Nodup) (hnd' : (ids t').Nodup)
    (hget : ∀ id, get? t' id = get? t id) : t.Perm t' := by
  rw [List.perm_ext_iff_of_nodup (nodup_of_nodup_ids hnd) (nodup_of_nodup_ids hnd')]
  rintro ⟨id, a⟩
  rw [mem_iff_get? hnd, mem_iff_get? hnd', hget]

end Table

namespace Hub

variable {h h' h'' k k' : Hub}

/-! ## What a pass leaves -/

/-- Some clients of `h` are disconnected in `h'` and have been told so. The sessions are the
same ones, and nothing else is but the slots of those who stay. -/
structure Sheds (h h' : Hub) : Prop where
  terms : h'.terms = h.terms
  sessions : Table.ids h'.registry.sessions = Table.ids h.registry.sessions
  clients : List.Sublist (Table.ids h'.clients) (Table.ids h.clients)
  client : ∀ id slot', Table.get? h'.clients id = some slot' →
    ∃ slot, Table.get? h.clients id = some slot ∧ slot'.client = slot.client
  closed : ∀ x, x ∈ h'.closed ↔ x ∈ h.closed ∨
    ∃ id slot, Table.get? h.clients id = some slot ∧ slot.client = x ∧
      Table.get? h'.clients id = none
  /-- Only a disconnection counts the clients anew. -/
  count : h'.liveCount
    = if h'.clients.length = h.clients.length then h.liveCount else h'.clients.length

theorem Sheds.length_le (hs : h.Sheds h') : h'.clients.length ≤ h.clients.length := by
  have hle := hs.clients.length_le
  rwa [Table.ids, Table.ids, List.length_map, List.length_map] at hle

theorem Sheds.stays_gone (hs : h.Sheds h') {id : SessionId}
    (hnone : Table.get? h.clients id = none) :
    Table.get? h'.clients id = none := by
  cases hslot' : Table.get? h'.clients id with
  | none => rfl
  | some slot' =>
      obtain ⟨slot, hslot, -⟩ := hs.client id slot' hslot'
      cases hnone.symm.trans hslot

theorem Sheds.trans (hs : h.Sheds h') (hs' : h'.Sheds h'') : h.Sheds h'' where
  terms := hs'.terms.trans hs.terms
  sessions := hs'.sessions.trans hs.sessions
  clients := hs'.clients.trans hs.clients
  client id slot'' hslot'' := by
    obtain ⟨slot', hslot', hsame'⟩ := hs'.client id slot'' hslot''
    obtain ⟨slot, hslot, hsame⟩ := hs.client id slot' hslot'
    exact ⟨slot, hslot, hsame'.trans hsame⟩
  closed x := by
    rw [hs'.closed, hs.closed]
    constructor
    · rintro ((hx | ⟨id, slot, hslot, hx, hgone⟩) | ⟨id, slot', hslot', hx, hgone⟩)
      · exact Or.inl hx
      · exact Or.inr ⟨id, slot, hslot, hx, hs'.stays_gone hgone⟩
      · obtain ⟨slot, hslot, hsame⟩ := hs.client id slot' hslot'
        exact Or.inr ⟨id, slot, hslot, hsame.symm.trans hx, hgone⟩
    · rintro (hx | ⟨id, slot, hslot, hx, hgone⟩)
      · exact Or.inl (Or.inl hx)
      · -- gone at the end: in the first part, or in the second
        cases hslot' : Table.get? h'.clients id with
        | none => exact Or.inl (Or.inr ⟨id, slot, hslot, hx, hslot'⟩)
        | some slot' =>
            obtain ⟨slot₀, hslot₀, hsame⟩ := hs.client id slot' hslot'
            obtain rfl := Option.some.inj (hslot.symm.trans hslot₀)
            exact Or.inr ⟨id, slot', hslot', hsame.trans hx, hgone⟩
  count := by
    have hle := hs.length_le
    have hle' := hs'.length_le
    rw [hs'.count, hs.count]
    split
    · next heq => rw [heq]
    · next hne => rw [if_neg (by omega)]

theorem Retouched.sheds (hr : h.Retouched h') : h.Sheds h' where
  terms := hr.terms
  sessions := congrArg Table.ids hr.sessions
  clients := hr.ids ▸ List.Sublist.refl _
  client := hr.client
  closed x := by
    rw [hr.closed]
    refine (or_iff_left ?_).symm
    rintro ⟨id, slot, hslot, -, hgone⟩
    rw [Table.get?_eq_none_iff, hr.ids] at hgone
    exact hgone (Table.mem_ids_of_get? hslot)
  count := by
    have hlen : h'.clients.length = h.clients.length := by
      simpa [Table.ids] using congrArg List.length hr.ids
    rw [if_pos hlen, hr.count]

theorem Sheds.refl (h : Hub) : h.Sheds h :=
  Retouched.sheds ⟨rfl, rfl, fun _ slot hslot => ⟨slot, hslot, rfl⟩, rfl, rfl, rfl,
    fun _ _ hmem => hmem⟩

/-- The sessions changed, but not which ones there are. -/
theorem sheds_registry (h : Hub) {r : Registry}
    (hterms : ({ h with registry := r } : Hub).terms = h.terms)
    (hids : Table.ids r.sessions = Table.ids h.registry.sessions) :
    h.Sheds { h with registry := r } where
  terms := hterms
  sessions := hids
  clients := List.Sublist.refl _
  client _ slot hslot := ⟨slot, hslot, rfl⟩
  closed := (Sheds.refl h).closed
  count := (if_pos rfl).symm

theorem sheds_unregister (h : Hub) (id : SessionId) (client : Option ClientId) :
    h.Sheds (h.unregister id client).1 := by
  by_cases hout : ∃ slot, Table.get? h.clients id = some slot ∧ client.all (· == slot.client) = true
  case neg =>
    rw [unregister_none h]
    · exact (untouched_note h (fun _ _ => Notice.noConfusion)).retouched.sheds
    · intro slot hslot
      rw [← Bool.not_eq_true]
      intro hc
      exact hout ⟨slot, hslot, hc⟩
  case pos =>
    obtain ⟨slot, hslot, hc⟩ := hout
    have hterms := terms_unregister h id client
    rw [unregister_some h hslot hc] at hterms ⊢
    have hget : ∀ key, Table.get? (Table.erase h.clients id) key
        = if key = id then none else Table.get? h.clients key :=
      fun key => Table.get?_erase id key h.clients
    refine ⟨hterms, ids_disconnect _ id, Table.ids_filter_sublist _ h.clients, ?_, ?_, ?_⟩
    · intro key slot' hslot'
      have hslot' := (hget key).symm.trans hslot'
      split at hslot'
      · cases hslot'
      · exact ⟨slot', hslot', rfl⟩
    · intro x
      show x ∈ slot.client :: h.closed ↔ x ∈ h.closed ∨ ∃ key slot',
        Table.get? h.clients key = some slot' ∧ slot'.client = x ∧
          Table.get? (Table.erase h.clients id) key = none
      rw [List.mem_cons, or_comm]
      refine or_congr_right ⟨?_, ?_⟩
      · rintro rfl
        exact ⟨id, slot, hslot, rfl, (hget id).trans (if_pos rfl)⟩
      · rintro ⟨key, slot', hslot', hx, hgone⟩
        rw [hget] at hgone
        split at hgone
        · next hk =>
            subst hk
            obtain rfl := Option.some.inj (hslot.symm.trans hslot')
            exact hx.symm
        · cases hgone.symm.trans hslot'
    · have hlt : (Table.erase h.clients id).length < h.clients.length :=
        List.length_filter_lt_length_iff_exists.mpr
          ⟨(id, slot), Table.mem_of_get? hslot, by simp⟩
      exact (if_neg (Nat.ne_of_lt hlt)).symm

theorem sheds_forceDisconnect (h : Hub) (id : SessionId) : h.Sheds (h.forceDisconnect id) := by
  have hout := sheds_unregister h id none
  unfold forceDisconnect
  split
  · next h' heq =>
      rw [heq] at hout
      exact hout.trans (untouched_note h' (fun _ _ => Notice.noConfusion)).retouched.sheds
  · next h' heq =>
      rw [heq] at hout
      exact hout

theorem Sheds.foldl_forceDisconnect (hs : h.Sheds h') (ids : List SessionId) :
    h.Sheds (ids.foldl Hub.forceDisconnect h') := by
  induction ids generalizing h' with
  | nil => exact hs
  | cons id ids ih => exact ih (hs.trans (sheds_forceDisconnect h' id))

theorem sheds_dispatchLive (h : Hub) (e : Event) : h.Sheds (h.dispatchLive e) := by
  obtain ⟨journal, hjournal, heq⟩ := offerAll_eq h e
  unfold dispatchLive
  rw [heq]
  exact (judged_retouched (offering_client e) hjournal).sheds.foldl_forceDisconnect _

theorem sheds_reap (h : Hub) : h.Sheds h.reap := by
  rw [reap_eq]
  have hjudged : h.Retouched { h with
      clients := h.judged fun slot => slot.check h.config.patience h.now } :=
    judged_retouched (fun slot => check_client slot _ _) fun _ _ hmem => hmem
  exact hjudged.sheds.foldl_forceDisconnect _

theorem sheds_buffer (h : Hub) (id : SessionId) (e : Event) :
    h.Sheds { h with registry := h.registry.buffer id e } :=
  sheds_registry h (terms_buffer h id e) (ids_buffer h.registry id e)

theorem sheds_dispatchTo (h : Hub) (e : Event) (id : SessionId) : h.Sheds (h.dispatchTo e id) := by
  unfold dispatchTo
  cases hslot : Table.get? h.clients id with
  | none =>
      rw [offer_none h hslot]
      exact sheds_buffer h id e
  | some slot =>
      obtain ⟨journal, hjournal, heq⟩ := offer_some h hslot e
      have hoffered := (put_slot_retouched hslot (h.offering e slot).1 (offering_client e slot)
        hjournal).sheds
      rw [heq]
      dsimp only
      split
      · exact (hoffered.trans (sheds_forceDisconnect _ id)).trans (sheds_buffer _ id e)
      · exact hoffered

theorem Sheds.foldl_dispatchTo (hs : h.Sheds h') (e : Event) (ids : List SessionId) :
    h.Sheds (ids.foldl (fun h id => h.dispatchTo e id) h') := by
  induction ids generalizing h' with
  | nil => exact hs
  | cons id ids ih => exact ih (hs.trans (sheds_dispatchTo h' e id))

theorem sheds_dispatch (h : Hub) (m : Message) : h.Sheds (h.dispatch m) := by
  unfold dispatch
  split
  · refine (sheds_dispatchLive h m.event).trans ?_
    exact sheds_registry _ rfl (ids_bufferAll _ m.event)
  · exact sheds_dispatchLive h m.event
  · exact (Sheds.refl h).foldl_dispatchTo m.event _

/-! ## Reordered hubs -/

/-- The same clients and sessions, listed in some other order. -/
structure Reordered (h h' : Hub) : Prop where
  clients : h.clients.Perm h'.clients
  sessions : h.registry.sessions.Perm h'.registry.sessions
  clients_nodup : (Table.ids h.clients).Nodup
  sessions_nodup : (Table.ids h.registry.sessions).Nodup
  count : h'.liveCount = h.liveCount
  closed : ∀ x, x ∈ h'.closed ↔ x ∈ h.closed
  terms : h'.terms = h.terms

theorem Reordered.symm (hre : h.Reordered h') : h'.Reordered h where
  clients := hre.clients.symm
  sessions := hre.sessions.symm
  clients_nodup := (Table.perm_ids hre.clients).nodup_iff.mp hre.clients_nodup
  sessions_nodup := (Table.perm_ids hre.sessions).nodup_iff.mp hre.sessions_nodup
  count := hre.count.symm
  closed x := (hre.closed x).symm
  terms := hre.terms.symm

/-- What is kept under an id does not depend on where it stands. -/
theorem Reordered.place (hre : h.Reordered h') (id : SessionId) : h'.place id = h.place id :=
  congrArg₂ Place.mk (Table.get?_eq_of_perm hre.sessions_nodup hre.sessions id)
    (Table.get?_eq_of_perm hre.clients_nodup hre.clients id)

/-- Reordered hubs are told apart by nothing that disconnections leave, if the places are the
same afterwards. -/
theorem Reordered.of_sheds (hre : h.Reordered h') (hs : h.Sheds k) (hs' : h'.Sheds k')
    (hplace : ∀ id, k'.place id = k.place id) : k.Reordered k' := by
  have hget : ∀ id, Table.get? k'.clients id = Table.get? k.clients id :=
    fun id => congrArg Place.slot (hplace id)
  have hfind : ∀ id, Table.get? k'.registry.sessions id = Table.get? k.registry.sessions id :=
    fun id => congrArg Place.session (hplace id)
  have hnd : (Table.ids k.clients).Nodup := hre.clients_nodup.sublist hs.clients
  have hnd' : (Table.ids k'.clients).Nodup := hre.symm.clients_nodup.sublist hs'.clients
  have hsessions : (Table.ids k.registry.sessions).Nodup := hs.sessions ▸ hre.sessions_nodup
  have hsessions' : (Table.ids k'.registry.sessions).Nodup :=
    hs'.sessions ▸ hre.symm.sessions_nodup
  have hperm : k.clients.Perm k'.clients := Table.perm_of_get?_eq hnd hnd' hget
  refine ⟨hperm, Table.perm_of_get?_eq hsessions hsessions' hfind, hnd, hsessions, ?_, ?_, ?_⟩
  · rw [hs.count, hs'.count, hre.count, hperm.length_eq, hre.clients.length_eq]
  · intro x
    rw [hs'.closed, hs.closed, hre.closed]
    refine or_congr_right (exists_congr fun id => exists_congr fun slot => ?_)
    rw [hget, Table.get?_eq_of_perm hre.clients_nodup hre.clients id]
  · rw [hs'.terms, hs.terms, hre.terms]

/-! ## Passes over reordered hubs -/

theorem Reordered.dispatchLive (hre : h.Reordered h') (e : Event) :
    (h.dispatchLive e).Reordered (h'.dispatchLive e) := by
  refine hre.of_sheds (sheds_dispatchLive h e) (sheds_dispatchLive h' e) ?_
  intro id
  rw [place_dispatchLive h hre.clients_nodup, place_dispatchLive h' hre.symm.clients_nodup,
    hre.place, hre.terms]

theorem Reordered.bufferAll (hre : h.Reordered h') (e : Event) :
    Reordered { h with registry := (h.registry.bufferAll e).1 }
      { h' with registry := (h'.registry.bufferAll e).1 } := by
  refine hre.of_sheds (sheds_registry h rfl (ids_bufferAll h.registry e))
    (sheds_registry h' rfl (ids_bufferAll h'.registry e)) ?_
  intro id
  rw [place_bufferAll, place_bufferAll, hre.place]

/-- Naming sessions in another order makes no difference, nor does the order of the tables. -/
theorem Reordered.dispatch_sessions (hre : h.Reordered h') (e : Event) {ids ids' : List SessionId}
    (hids : ids.Perm ids') :
    (h.dispatch ⟨e, .sessions ids⟩).Reordered (h'.dispatch ⟨e, .sessions ids'⟩) := by
  refine hre.of_sheds (sheds_dispatch h _) (sheds_dispatch h' _) ?_
  intro id
  show (ids'.foldl (fun h id => h.dispatchTo e id) h').place id
    = (ids.foldl (fun h id => h.dispatchTo e id) h).place id
  rw [place_foldl_dispatchTo_eq, place_foldl_dispatchTo_eq, hids.count_eq, hre.place, hre.terms]

theorem Reordered.dispatch (hre : h.Reordered h') (m : Message) :
    (h.dispatch m).Reordered (h'.dispatch m) := by
  obtain ⟨e, scope⟩ := m
  cases scope with
  | everyone => exact (hre.dispatchLive e).bufferAll e
  | live => exact hre.dispatchLive e
  | sessions ids => exact hre.dispatch_sessions e (List.Perm.refl ids)

theorem Reordered.reap (hre : h.Reordered h') : h.reap.Reordered h'.reap := by
  refine hre.of_sheds (sheds_reap h) (sheds_reap h') ?_
  intro id
  rw [place_reap h hre.clients_nodup, place_reap h' hre.symm.clients_nodup, hre.place, hre.terms]

/-- Sweeping drops the same sessions from both, and as many. -/
theorem Reordered.sweep (hre : h.Reordered h') :
    Reordered { h with registry := h.registry.sweep.1 }
      { h' with registry := h'.registry.sweep.1 } ∧
      h'.registry.sweep.2 = h.registry.sweep.2 := by
  have hexpired : ∀ s, h'.registry.isExpired s = h.registry.isExpired s :=
    fun s => congrArg (fun t : Terms => s.expired t.sessions.ttl t.now) hre.terms
  have hkept : (h.registry.sessions.filter fun entry => !h.registry.isExpired entry.2).Perm
      (h'.registry.sessions.filter fun entry => !h'.registry.isExpired entry.2) := by
    simp only [hexpired]
    exact hre.sessions.filter _
  refine ⟨⟨hre.clients, ?_, hre.clients_nodup, h.registry.nodup_sweep hre.sessions_nodup, hre.count,
    hre.closed, ?_⟩, ?_⟩
  · show h.registry.sweep.1.sessions.Perm h'.registry.sweep.1.sessions
    rw [Registry.sweep_sessions, Registry.sweep_sessions]
    exact hkept
  · obtain ⟨hconfig, hnow⟩ := registry_sweep_terms h.registry
    obtain ⟨hconfig', hnow'⟩ := registry_sweep_terms h'.registry
    show Terms.mk h'.config h'.registry.sweep.1.config h'.registry.sweep.1.now
      = Terms.mk h.config h.registry.sweep.1.config h.registry.sweep.1.now
    rw [hconfig, hnow, hconfig', hnow']
    exact hre.terms
  · show h'.registry.sessions.length - _ = h.registry.sessions.length - _
    rw [hre.sessions.length_eq, hkept.length_eq]

theorem Reordered.closeAll (hre : h.Reordered h') : h.closeAll.Reordered h'.closeAll := by
  refine ⟨List.Perm.refl _, ?_, List.nodup_nil, ?_, rfl, ?_, ?_⟩
  · refine Table.perm_of_get?_eq ?_ ?_ ?_
    · exact (ids_foldl_disconnect _ h.registry).symm ▸ hre.sessions_nodup
    · exact (ids_foldl_disconnect _ h'.registry).symm ▸ hre.symm.sessions_nodup
    · intro id
      have hplace : h'.closeAll.place id = h.closeAll.place id := by
        rw [place_closeAll, place_closeAll, hre.place, hre.terms]
      exact congrArg Place.session hplace
  · exact (ids_foldl_disconnect _ h.registry).symm ▸ hre.sessions_nodup
  · intro x
    show x ∈ h'.clients.map (·.2.client) ++ h'.closed ↔ x ∈ h.clients.map (·.2.client) ++ h.closed
    rw [List.mem_append, List.mem_append, hre.closed, (hre.clients.map _).mem_iff]
  · rw [terms_closeAll, terms_closeAll, hre.terms]

/-- **The order of the tables does not matter**, nor the order in which a message names its
sessions: what goes through them leaves hubs that differ in the order of their entries only, so
every session has the same buffer, count and activity, every client the same queue, and the
same clients are connected, counted and told of their end. -/
theorem Reordered.passes (hre : h.Reordered h') :
    (∀ m, (h.dispatch m).Reordered (h'.dispatch m)) ∧
    (∀ e ids ids', List.Perm ids ids' →
      (h.dispatch ⟨e, .sessions ids⟩).Reordered (h'.dispatch ⟨e, .sessions ids'⟩)) ∧
    h.reap.Reordered h'.reap ∧
    Reordered { h with registry := h.registry.sweep.1 }
      { h' with registry := h'.registry.sweep.1 } ∧
    h'.registry.sweep.2 = h.registry.sweep.2 ∧
    h.closeAll.Reordered h'.closeAll :=
  ⟨hre.dispatch, fun e _ _ hids => hre.dispatch_sessions e hids, hre.reap, hre.sweep.1, hre.sweep.2,
    hre.closeAll⟩

/-- The hub with both tables the other way round. -/
def reversed (h : Hub) : Hub :=
  { h with
    clients := h.clients.reverse
    registry := { h.registry with sessions := h.registry.sessions.reverse } }

/-- Two clients stay, and a third one has gone and left its session. -/
def trio : List Act :=
  [.register (.numbered 1 none none [.ok "S1"]), .register (.numbered 2 none none [.ok "S2"]),
    .register (.numbered 3 none none [.ok "S3"]), .release "S3" none]

theorem passes_reversed : ∃ past h, Run past h ∧ h.clients.length = 2 ∧
    h.registry.sessions.length = 3 ∧ h.reversed.clients ≠ h.clients ∧
    h.reversed.registry.sessions ≠ h.registry.sessions ∧
    (∀ m, (h.dispatch m).Reordered (h.reversed.dispatch m)) ∧ h.reap.Reordered h.reversed.reap ∧
    h.closeAll.Reordered h.reversed.closeAll := by
  have hplayed : (play trio ([], Hub.opened {} {})).any (fun s =>
      decide (s.2.clients.length = 2 ∧ s.2.registry.sessions.length = 3 ∧
        s.2.reversed.clients ≠ s.2.clients ∧
        s.2.reversed.registry.sessions ≠ s.2.registry.sessions)) = true := by decide +kernel
  obtain ⟨⟨past, h⟩, hplay, hs⟩ := (Option.any_eq_true _ _).mp hplayed
  obtain ⟨hclients, hsessions, hne, hne'⟩ := of_decide_eq_true hs
  have hrun : Run past h := Run.play (Run.opened (by decide) {}) hplay
  have hre : h.Reordered h.reversed :=
    ⟨(List.reverse_perm _).symm, (List.reverse_perm _).symm, hrun.sound.clients_nodup,
      hrun.sound.sessions_nodup, rfl, fun _ => Iff.rfl, rfl⟩
  obtain ⟨hdispatch, -, hreap, -, -, hclose⟩ := Reordered.passes hre
  exact ⟨past, h, hrun, hclients, hsessions, hne, hne', hdispatch, hreap, hclose⟩

end Hub

end EventRelay
