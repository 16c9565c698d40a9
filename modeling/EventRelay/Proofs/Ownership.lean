import EventRelay.Proofs.Sound

/-!
# Every session has one owner

Who is connected is written down three times: in the table of live clients, in the
`active` mark of the sessions, and in the number of live clients that others see.
`Run.single_owner` says that the three agree at every point of every run, and that
no session is ever in the hands of two clients.
-/

namespace EventRelay

namespace Hub

variable {hs : List Client} {h : Hub}

/-- The ids of the sessions in somebody's hands. -/
def held (h : Hub) : Set SessionId := {id | ∃ s, h.registry.find? id = some s ∧ s.active = true}

/-- The two tables agree on who is connected. -/
theorem Sound.mem_clients_iff (hS : h.Sound hs) (id : SessionId) :
    id ∈ Table.ids h.clients ↔ id ∈ h.held := by
  rw [← Table.get?_isSome]
  exact (hS.place id).held

/-- A session with an open handle is served by that handle. -/
theorem Sound.serves_of_open (hS : h.Sound hs) {c : Client} (hc : c ∈ hs)
    (hopen : h.isClosed c = false) : h.Serves c := by
  have hmem : c.id ∉ h.closed := by
    rw [isClosed, ← Bool.not_eq_true, List.contains_iff_mem] at hopen
    exact hopen
  exact not_not.mp ((hS.closed_iff c hc).not.mp hmem)

/-- Two open handles on one session are one handle. -/
theorem Sound.open_unique (hS : h.Sound hs) {c c' : Client} (hc : c ∈ hs) (hc' : c' ∈ hs)
    (hsession : c.session = c'.session) (hopen : h.isClosed c = false)
    (hopen' : h.isClosed c' = false) : c = c' := by
  obtain ⟨slot, hslot, hname⟩ := hS.serves_of_open hc hopen
  obtain ⟨slot', hslot', hname'⟩ := hS.serves_of_open hc' hopen'
  rw [← hsession, hslot] at hslot'
  obtain rfl := Option.some.inj hslot'
  exact hS.handle_ext hc hc' (hname.symm.trans hname')

/-! ## Counting -/

theorem Sound.mem_active_iff (hS : h.Sound hs) (id : SessionId) :
    id ∈ Table.ids (h.registry.sessions.filter (·.2.active)) ↔ id ∈ h.held := by
  rw [← Table.get?_isSome, Table.get?_filter _ hS.sessions_nodup]
  show ((h.registry.find? id).filter _).isSome = true ↔ ∃ s, h.registry.find? id = some s ∧ _
  cases h.registry.find? id with
  | none => simp
  | some s => cases hactive : s.active <;> simp [hactive]

theorem Sound.liveCount_eq_countP (hS : h.Sound hs) :
    h.liveCount = h.registry.sessions.countP (·.2.active) := by
  have hnd : (Table.ids (h.registry.sessions.filter (·.2.active))).Nodup :=
    hS.sessions_nodup.sublist (Table.ids_filter_sublist _ _)
  have hperm : List.Perm (Table.ids h.clients)
      (Table.ids (h.registry.sessions.filter (·.2.active))) := by
    rw [List.perm_ext_iff_of_nodup hS.clients_nodup hnd]
    intro id
    exact (hS.mem_clients_iff id).trans (hS.mem_active_iff id).symm
  have hlen := hperm.length_eq
  simp only [Table.ids, List.length_map] at hlen
  rw [hS.count, hlen, List.countP_eq_length_filter]

theorem Sound.liveCount_eq_ncard (hS : h.Sound hs) : h.liveCount = h.held.ncard := by
  have hheld : h.held = ((Table.ids h.clients).toFinset : Set SessionId) := by
    ext id
    rw [Finset.mem_coe, List.mem_toFinset, hS.mem_clients_iff]
  rw [hheld, Set.ncard_coe_finset, List.toFinset_card_of_nodup hS.clients_nodup, hS.count,
    Table.ids, List.length_map]

theorem Sound.size_eq (hS : h.Sound hs) :
    h.registry.size = h.liveCount + h.registry.disconnected := by
  rw [hS.liveCount_eq_countP, Registry.size, Registry.disconnected,
    List.length_eq_countP_add_countP (fun entry => entry.2.active)]
  simp only [Bool.not_eq_true, Bool.decide_eq_false]

end Hub

/-- **Every session has one owner.** At every point of every run: the clients in the
table are those of the active sessions, no session has two open handles, admission
never came upon a client to replace, and the figures add up. -/
theorem Run.single_owner {past : List Occurrence} {h : Hub} (hrun : Run past h) :
    (∀ id, id ∈ Table.ids h.clients ↔ ∃ s, h.registry.find? id = some s ∧ s.active = true) ∧
    (∀ c ∈ handles past, ∀ c' ∈ handles past, c.session = c'.session →
      h.isClosed c = false → h.isClosed c' = false → c = c') ∧
    (∀ id c, Notice.clientReplaced id c ∉ h.journal) ∧
    ∀ b : Broker, b.hub = h →
      b.stats.liveClients = Set.ncard {id | ∃ s, h.registry.find? id = some s ∧ s.active = true} ∧
      b.stats.totalSessions = b.stats.liveClients + b.stats.bufferedSessions := by
  have hS := hrun.sound
  refine ⟨hS.mem_clients_iff, ?_, hS.tidy, ?_⟩
  · intro c hc c' hc' hsession hopen hopen'
    exact hS.open_unique hc hc' hsession hopen hopen'
  · intro b hb
    obtain rfl := hb
    exact ⟨hS.liveCount_eq_ncard, hS.size_eq⟩

/-- Two clients come, one goes away and is found out, and a third takes its session. -/
def Act.succession : List Act :=
  [.register (.numbered 1 none none [.ok "S1"]), .register (.numbered 2 none none [.ok "S2"]),
    .leave ⟨⟨1⟩, "S1", false, 0⟩, .dispatch ⟨⟨"A", "news", [], false⟩, .everyone⟩,
    .register (.numbered 3 (some "S1") none [])]

/-- Of the three handles given out, the two on one session are not both open. -/
theorem single_owner_after_succession : ∃ past h, Run past h ∧ (handles past).length = 3 ∧
    ∀ c ∈ handles past, ∀ c' ∈ handles past, c.session = c'.session →
      h.isClosed c = false → h.isClosed c' = false → c = c' := by
  have hthree : (play Act.succession ([], Hub.opened {} {})).map (fun s => (handles s.1).length)
      = some 3 := by decide +kernel
  obtain ⟨s, hplay, hlen⟩ := Option.map_eq_some_iff.mp hthree
  have hrun : Run s.1 s.2 := Run.play (Run.opened (by decide) {}) hplay
  exact ⟨s.1, s.2, hrun, hlen, (Run.single_owner hrun).2.1⟩

end EventRelay
