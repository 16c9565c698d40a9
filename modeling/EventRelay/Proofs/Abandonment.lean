import EventRelay.Proofs.Faults
import EventRelay.Proofs.Ledger

/-!
# Registrations that nobody waits for

A registration whose caller has gone away is undone at once: its client is disconnected, and
the session is free for the next one. What it took as acknowledged stays so, and what it was
handed out counts as handed out, though nobody has seen it. So the next registration that
presents the same id may take the whole replay of the lost one for acknowledged.

`Session.Unnoticed` says when this does no harm. The two replays are suffixes of one list
(`Session.Wf.cuts`), and `Run.abandonment` compares them in two runs from one point, one with
the lost registration and one without it.
-/

namespace EventRelay

/-! ## What a session keeps -/

namespace Session

variable {s : Session} {l : Ledger} {last : Option EventId} {es : List Event}

/-- The session after it has missed some events. -/
def missAll (s : Session) (es : List Event) : Session := es.foldl (fun s e => (s.miss e).1) s

/-- The session after a client that nobody waits for was given it. -/
def abandon (s : Session) (last : Option EventId) (now : Nat) : Session :=
  (s.reclaim last now).disconnect now

/-- How many events are displaced, from the oldest on, when `es` are missed too. -/
def displaced (s : Session) (es : List Event) : Nat :=
  (s.missed ++ es).length - s.buffer.capacity

/-- What the session has when it has missed `es` too, if it discarded `n` events before. -/
def rest (s : Session) (n : Nat) (es : List Event) : List Event :=
  (s.missed ++ es).drop (max n (s.displaced es))

/-- What it would have of those `n` events if it had not discarded them. -/
def skipped (s : Session) (n : Nat) (es : List Event) : List Event :=
  (s.missed.take n).drop (s.displaced es)

/-- When a client does not notice that the session was given to somebody before who presented
the same and whom nobody waited for. The events `es` were missed since then. -/
inductive Unnoticed (s : Session) (last : Option EventId) (es : List Event) : Prop
  /-- It presents nothing. -/
  | blank (hlast : last.filter (· != "") = none)
  /-- What it presents is there, and was not there before what is there now. -/
  | found {name : EventId} (hlast : last.filter (· != "") = some name)
      (hthere : name ∈ (s.rest (s.acknowledgedBy last) es).map (·.id))
      (hskipped : name ∉ (s.skipped (s.acknowledgedBy last) es).map (·.id))
  /-- What it presents is not there, and of what was handed out nothing is there. -/
  | nothing_left {name : EventId} (hlast : last.filter (· != "") = some name)
      (hgone : name ∉ (s.rest (s.acknowledgedBy last) es).map (·.id))
      (hleft : s.missed.length ≤ max (s.acknowledgedBy last) (s.displaced es))
  /-- What it presents would not have been there, and all else had been handed out once. -/
  | handed_out {name : EventId} (hlast : last.filter (· != "") = some name)
      (hgone : name ∉ (s.rest 0 es).map (·.id)) (hhanded : s.unacknowledged = s.missed.length)

/-! ## The ledgers of both -/

/-- A session by itself is its own ledger. -/
theorem Wf.follows (hwf : s.Wf) : s.Follows ⟨s.missed, 0, s.unacknowledged, s.active⟩ := by
  have hfits : s.missed.length - s.buffer.capacity = 0 := Nat.sub_eq_zero_of_le hwf.ring.length_le
  refine ⟨hwf, ⟨Nat.zero_le _, hwf.handed⟩, rfl, ?_, ?_⟩
  · rw [Ledger.kept, Ledger.start, hfits]
    rfl
  · rw [Ledger.start, hfits]
    rfl

theorem Follows.missAll (hf : s.Follows l) (hidle : s.active = false) (es : List Event) :
    (s.missAll es).Follows { l with missed := l.missed ++ es } ∧
      (s.missAll es).buffer.capacity = s.buffer.capacity := by
  induction es generalizing s l with
  | nil => exact ⟨by rwa [List.append_nil], rfl⟩
  | cons e es ih =>
      have hpush : l.push e = { l with missed := l.missed ++ [e] } := by
        rw [Ledger.push, ← hf.held, hidle]
        rfl
      have hmiss := hf.miss hidle e
      rw [hpush] at hmiss
      obtain ⟨hrest, hcapacity⟩ := ih hmiss hidle
      rw [List.append_assoc, List.singleton_append] at hrest
      exact ⟨hrest, hcapacity.trans (s.miss_capacity e)⟩

end Session

/-- What is presented is a name if it is not blank. -/
theorem presented_name {last : Option EventId} {name : EventId}
    (hlast : last.filter (· != "") = some name) : last = some name ∧ name ≠ "" := by
  simpa [Option.filter_eq_some_iff] using hlast

namespace Ledger

variable {l : Ledger} {last : Option EventId} {name : EventId}

theorem covered_blank (capacity : Nat) (hlast : last.filter (· != "") = none) :
    l.covered capacity last = l.acknowledged := by
  cases last with
  | none => rfl
  | some id =>
      have hid : id = "" := by simpa [Option.filter] using hlast
      rw [covered, if_pos hid]

theorem covered_name (capacity : Nat) (hlast : last.filter (· != "") = some name) :
    l.covered capacity last = match (l.kept capacity).findIdx? (·.id == name) with
      | some k => l.start capacity + k + 1
      | none => max l.acknowledged l.handed := by
  obtain ⟨rfl, hid⟩ := presented_name hlast
  exact if_neg hid

end Ledger

/-! ## Comparing the two -/

namespace Session

variable {s : Session} {last : Option EventId} {es : List Event} {name : EventId}

/-- In a ring that is sound a client covers what it acknowledges. -/
theorem Wf.covered_self (hwf : s.Wf) (last : Option EventId) :
    Ledger.covered ⟨s.missed, 0, s.unacknowledged, s.active⟩ s.buffer.capacity last
        = s.acknowledgedBy last ∧ s.acknowledgedBy last ≤ s.missed.length := by
  have hfits : s.missed.length - s.buffer.capacity = 0 := Nat.sub_eq_zero_of_le hwf.ring.length_le
  obtain ⟨hcut, hcovered⟩ := hwf.follows.start_present last
  simp only [Ledger.start, Ledger.present, hfits, Nat.max_zero, Nat.zero_add] at hcut
  exact ⟨hcut, hcut ▸ hcovered⟩

theorem not_mem_ids {es : List Event} :
    name ∉ es.map (·.id) ↔ es.findIdx? (·.id == name) = none := by
  simp [List.findIdx?_eq_none_iff]

theorem rest_zero {n : Nat} (hn : n ≤ s.missed.length) (es : List Event) :
    s.rest 0 es = s.skipped n es ++ s.rest n es := by
  have hall : s.missed ++ es = s.missed.take n ++ (s.missed.drop n ++ es) := by
    rw [← List.append_assoc, List.take_append_drop]
  have hlen : (s.missed.take n).length = n := List.length_take_of_le hn
  rw [rest, rest, skipped, Nat.zero_max, hall]
  generalize s.missed.drop n ++ es = later
  rw [List.drop_append, List.drop_append, hlen,
    List.drop_eq_nil_of_le (by omega : (s.missed.take n).length ≤ max n (s.displaced es)),
    List.nil_append, show max n (s.displaced es) - n = s.displaced es - n by omega]

/-- A name that is found among the events that a client acknowledges is that of the last. -/
theorem acknowledgedBy_of_getElem? {k : Nat} {e : Event} (hlast : last.filter (· != "") = some name)
    (he : s.missed[k]? = some e) (hname : e.id = name) (hk : k < s.acknowledgedBy last) :
    s.acknowledgedBy last = k + 1 := by
  obtain ⟨rfl, hid⟩ := presented_name hlast
  cases hfind : s.missed.findIdx? (·.id == name) with
  | none =>
      have hno := List.findIdx?_eq_none_iff.mp hfind e (List.mem_of_getElem? he)
      simp [hname] at hno
  | some p =>
      rw [acknowledgedBy_found hid hfind] at hk ⊢
      obtain ⟨hp, -, hfirst⟩ := List.findIdx?_eq_some_iff_getElem.mp hfind
      obtain ⟨hlt, rfl⟩ := List.getElem?_eq_some_iff.mp he
      rcases Nat.lt_or_ge k p with hlt' | hge
      · exact absurd hname (by simpa using hfirst k hlt')
      · omega

theorem findIdx?_skipped {j : Nat} (hlast : last.filter (· != "") = some name)
    (hfind : (s.skipped (s.acknowledgedBy last) es).findIdx? (·.id == name) = some j) :
    s.displaced es + j + 1 = s.acknowledgedBy last := by
  obtain ⟨hlt, hname, -⟩ := List.findIdx?_eq_some_iff_getElem.mp hfind
  have he := List.getElem?_eq_getElem hlt
  rw [skipped, List.length_drop, List.length_take] at hlt
  simp only [skipped, List.getElem?_drop] at he
  rw [List.getElem?_take_of_lt (by omega)] at he
  exact (acknowledgedBy_of_getElem? hlast he (beq_iff_eq.mp hname) (by omega)).symm

/-- If all was acknowledged and the name is not there, all had been handed out. -/
theorem handed_of_acknowledged (hlast : last.filter (· != "") = some name)
    (hall : s.acknowledgedBy last = s.missed.length) (hkept : s.displaced es < s.missed.length)
    (hgone : (s.rest 0 es).findIdx? (·.id == name) = none) :
    s.unacknowledged = s.missed.length := by
  obtain ⟨rfl, hid⟩ := presented_name hlast
  cases hfind : s.missed.findIdx? (·.id == name) with
  | none => rw [← hall, acknowledgedBy_missing hid hfind]
  | some p =>
      rw [acknowledgedBy_found hid hfind] at hall
      obtain ⟨hp, hname, -⟩ := List.findIdx?_eq_some_iff_getElem.mp hfind
      have hmem : s.missed[p] ∈ s.rest 0 es := by
        rw [rest, Nat.zero_max, List.drop_append_of_le_length (Nat.le_of_lt hkept)]
        refine List.mem_append_left _ (List.mem_of_getElem? (i := p - s.displaced es) ?_)
        rw [List.getElem?_drop, show s.displaced es + (p - s.displaced es) = p by omega,
          List.getElem?_eq_getElem hp]
      have hno := List.findIdx?_eq_none_iff.mp hgone _ hmem
      exact absurd hname (by simpa using hno)

theorem unnoticed_iff (hlast : last.filter (· != "") = some name) : s.Unnoticed last es ↔
    (s.rest (s.acknowledgedBy last) es).findIdx? (·.id == name) ≠ none ∧
        (s.skipped (s.acknowledgedBy last) es).findIdx? (·.id == name) = none ∨
      (s.rest (s.acknowledgedBy last) es).findIdx? (·.id == name) = none ∧
        s.missed.length ≤ max (s.acknowledgedBy last) (s.displaced es) ∨
      (s.rest 0 es).findIdx? (·.id == name) = none ∧ s.unacknowledged = s.missed.length := by
  simp only [← not_mem_ids, ne_eq, not_not]
  constructor
  · intro hun
    cases hun with
    | blank hblank => cases hblank.symm.trans hlast
    | found hlast' hthere hskipped =>
        obtain rfl := Option.some.inj (hlast.symm.trans hlast')
        exact Or.inl ⟨hthere, hskipped⟩
    | nothing_left hlast' hgone hleft =>
        obtain rfl := Option.some.inj (hlast.symm.trans hlast')
        exact Or.inr (Or.inl ⟨hgone, hleft⟩)
    | handed_out hlast' hgone hhanded =>
        obtain rfl := Option.some.inj (hlast.symm.trans hlast')
        exact Or.inr (Or.inr ⟨hgone, hhanded⟩)
  · rintro (⟨hthere, hskipped⟩ | ⟨hgone, hleft⟩ | ⟨hgone, hhanded⟩)
    · exact .found hlast hthere hskipped
    · exact .nothing_left hlast hgone hleft
    · exact .handed_out hlast hgone hhanded

/-- Where the replay begins for a client that presents a name, if nobody was there before and
if somebody was. -/
theorem Wf.starts (hwf : s.Wf) (hlast : last.filter (· != "") = some name) (es : List Event)
    {n m : Nat} (hn : n = match (s.rest 0 es).findIdx? (·.id == name) with
      | some j => s.displaced es + j + 1
      | none => s.unacknowledged)
    (hm : m = match (s.rest (s.acknowledgedBy last) es).findIdx? (·.id == name) with
      | some j => max (s.acknowledgedBy last) (s.displaced es) + j + 1
      | none => s.missed.length) :
    max n (s.displaced es) ≤ max m (s.displaced es) ∧
      (max n (s.displaced es) = max m (s.displaced es) ↔ s.Unnoticed last es) := by
  have hle := (hwf.covered_self last).2
  have hhanded := hwf.handed
  have hsplit := rest_zero hle es
  have hlen : (s.skipped (s.acknowledgedBy last) es).length
      = s.acknowledgedBy last - s.displaced es := by
    rw [skipped, List.length_drop, List.length_take_of_le hle]
  have hearly := @findIdx?_skipped s last es name
  have hfull := @handed_of_acknowledged s last es name hlast
  rw [unnoticed_iff hlast]
  rw [hsplit, List.findIdx?_append] at hn hfull ⊢
  cases hY : (s.rest (s.acknowledgedBy last) es).findIdx? (·.id == name) with
  | some j =>
      rw [hY] at hn hm
      cases hA : (s.skipped (s.acknowledgedBy last) es).findIdx? (·.id == name) with
      | some i =>
          have hi := hearly hlast hA
          rw [hA] at hn
          obtain rfl : n = s.displaced es + i + 1 := hn
          obtain rfl : m = max (s.acknowledgedBy last) (s.displaced es) + j + 1 := hm
          simp only [Option.some_or, reduceCtorEq, and_false, false_and, or_false, iff_false]
          omega
      | none =>
          rw [hA, hlen] at hn
          obtain rfl : n = s.displaced es + (j + (s.acknowledgedBy last - s.displaced es)) + 1 := hn
          obtain rfl : m = max (s.acknowledgedBy last) (s.displaced es) + j + 1 := hm
          simp only [ne_eq, reduceCtorEq, not_false_eq_true, and_self, true_or, iff_true]
          omega
  | none =>
      rw [hY] at hn hm
      obtain rfl : m = s.missed.length := hm
      cases hA : (s.skipped (s.acknowledgedBy last) es).findIdx? (·.id == name) with
      | some i =>
          have hi := hearly hlast hA
          rw [hA] at hn
          obtain rfl : n = s.displaced es + i + 1 := hn
          simp only [Option.some_or, ne_eq, not_true, reduceCtorEq, false_and, true_and, false_or,
            or_false]
          omega
      | none =>
          rw [hA] at hn
          obtain rfl : n = s.unacknowledged := hn
          simp only [hY, hA, Option.map_none, Option.or_none, forall_const] at hfull
          simp only [Option.map_none, Option.or_none, ne_eq, not_true, false_and, true_and,
            false_or]
          omega

theorem Wf.abandoned (hwf : s.Wf) (last : Option EventId) (es : List Event) (now : Nat) :
    ((s.abandon last now).missAll es).Follows
        ⟨s.missed ++ es, s.acknowledgedBy last, s.missed.length, false⟩ ∧
      ((s.abandon last now).missAll es).buffer.capacity = s.buffer.capacity := by
  obtain ⟨hf, hcapacity⟩ := ((hwf.follows.reclaim last now).disconnect now).missAll rfl es
  simp only [Ledger.leave, Ledger.present, (hwf.covered_self last).1] at hf
  exact ⟨hf, hcapacity.trans (s.reclaim_capacity last now)⟩

/-- The replays with and without a registration that nobody waited for, `es` being missed since
then, are ends of the same list. -/
theorem Wf.cuts (hwf : s.Wf) (hidle : s.active = false) (last : Option EventId) (es : List Event)
    (now now' : Nat) : ∃ n m, n ≤ m ∧ m ≤ (s.missed ++ es).length ∧
      ((s.missAll es).reclaim last now').replay = ((s.missed ++ es).drop n).map Event.asReplay ∧
      (((s.abandon last now).missAll es).reclaim last now').replay
        = ((s.missed ++ es).drop m).map Event.asReplay ∧
      (n = m ↔ s.Unnoticed last es) := by
  obtain ⟨hf, hcapacity⟩ := hwf.follows.missAll hidle es
  obtain ⟨hf', hcapacity'⟩ := hwf.abandoned last es now
  have hreplay := hf.replay_eq last now'
  have hreplay' := hf'.replay_eq last now'
  have hend := (hf'.start_present last).2
  have hdisplaced : s.displaced es ≤ (s.missed ++ es).length := Nat.sub_le _ _
  rw [hcapacity] at hreplay
  rw [hcapacity'] at hreplay' hend
  have hcompare : ∀ n m,
      n = Ledger.covered ⟨s.missed ++ es, 0, s.unacknowledged, s.active⟩ s.buffer.capacity last →
      m = Ledger.covered ⟨s.missed ++ es, s.acknowledgedBy last, s.missed.length, false⟩
        s.buffer.capacity last →
      max n (s.displaced es) ≤ max m (s.displaced es) ∧
        (max n (s.displaced es) = max m (s.displaced es) ↔ s.Unnoticed last es) := by
    intro n m hn hm
    cases hlast : last.filter (· != "") with
    | none =>
        have hnone : s.acknowledgedBy last = 0 := by rw [acknowledgedBy, hlast]
        rw [Ledger.covered_blank _ hlast] at hn hm
        obtain rfl : n = 0 := hn
        obtain rfl : m = 0 := hm.trans hnone
        exact ⟨Nat.le_refl _, iff_of_true rfl (.blank hlast)⟩
    | some name =>
        rw [Ledger.covered_name _ hlast] at hn hm
        refine hwf.starts hlast es ?_ ?_
        · rw [hn]
          simp only [Ledger.kept, Ledger.start, Nat.zero_max, rest, displaced]
        · rw [hm]
          simp only [Ledger.kept, Ledger.start, rest, displaced,
            max_eq_right (hwf.covered_self last).2]
  obtain ⟨hle, hiff⟩ := hcompare _ _ rfl rfl
  exact ⟨_, _, hle, max_le hend hdisplaced, hreplay, hreplay', hiff⟩

end Session

/-! ## Messages while nobody holds the session -/

namespace Session

theorem missAll_rest (s : Session) (es : List Event) : (s.missAll es).active = s.active ∧
    (s.missAll es).lastSeen = s.lastSeen ∧ (s.missAll es).metadata = s.metadata := by
  induction es generalizing s with
  | nil => exact ⟨rfl, rfl, rfl⟩
  | cons e es ih => exact ih (s.miss e).1

theorem missAll_append (s : Session) (es es' : List Event) :
    (s.missAll es).missAll es' = s.missAll (es ++ es') := List.foldl_append.symm

end Session

namespace Act

/-- A message is sent, or time passes. -/
def quiet : Act → Prop
  | .dispatch _ | .wait _ => True
  | _ => False

/-- What an act leaves in the buffer of a session that nobody holds. -/
def leaves (id : SessionId) : Act → List Event
  | .dispatch m => if m.scope = .live then [] else List.replicate (m.scope.copies id) m.event
  | _ => []

end Act

namespace Place

variable {s : Session} {t : Terms} {e : Event}

theorem receive_idle (hidle : s.active = false) (e : Event) (t : Terms) :
    receive ⟨some s, none⟩ e t = ⟨some (s.miss e).1, none⟩ := by
  simp [receive, tell_none, keep, hidle]

theorem receive_idle_iterate (hidle : s.active = false) (copies : Nat) :
    (fun p : Place => p.receive e t)^[copies] ⟨some s, none⟩
      = ⟨some (s.missAll (List.replicate copies e)), none⟩ := by
  induction copies generalizing s with
  | zero => rfl
  | succ copies ih =>
      rw [Function.iterate_succ_apply, receive_idle hidle, ih (s := (s.miss e).1) hidle]
      rfl

end Place

namespace Hub

variable {h h' : Hub} {hs : List Client} {id : SessionId} {s : Session} {a : Act} {acts : List Act}
  {g : Registration} {es : List Event}

theorem Sound.place_quiet (hS : h.Sound hs) (hplace : h.place id = ⟨some s, none⟩)
    (hidle : s.active = false) (hquiet : a.quiet) :
    (h.act a).1.place id = ⟨some (s.missAll (a.leaves id)), none⟩ := by
  cases a with
  | dispatch m =>
      rw [hS.place_act fun _ => Act.noConfusion, Place.next, hplace, Act.leaves]
      split
      · exact Place.tell_none rfl m.event
      · exact Place.receive_idle_iterate hidle _
  | wait span => exact hplace
  | _ => exact hquiet.elim

/-- A session that may be had may still be had if its retention had begun later. -/
theorem claim?_later {s' : Session} (hclaim : h.claim? g = some id) (hterms : h'.terms = h.terms)
    (hs : h.registry.find? id = some s) (hplace : h'.place id = ⟨some s', none⟩)
    (hidle : s'.active = false) (hmeta : s'.metadata = s.metadata)
    (hseen : s.lastSeen ≤ s'.lastSeen) :
    h'.claim? g = some id := by
  obtain ⟨hcandidate, -, s₀, hs₀, hidle₀, hkept, hbinding⟩ := h.claim?_eq_some hclaim
  obtain rfl := Option.some.inj (hs.symm.trans hs₀)
  have hs' : h'.registry.find? id = some s' := congrArg Place.session hplace
  have hconfig : h'.registry.config = h.registry.config := congrArg Terms.sessions hterms
  have hnow : h'.registry.now = h.registry.now := congrArg Terms.now hterms
  refine claim?_iff.mpr ⟨hcandidate, congrArg Place.slot hplace, ?_⟩
  simp only [Registry.isExpired, Session.expired, hidle₀, Bool.not_false, Bool.true_and,
    decide_eq_false_iff_not] at hkept
  simp only [Registry.claimable, hs', hidle, Registry.isExpired, Session.expired, hconfig, hnow,
    hmeta,
    Bool.not_false, Bool.true_and, Bool.and_eq_true, Bool.not_eq_true', decide_eq_false_iff_not,
    Bool.or_eq_true, beq_iff_eq]
  refine ⟨by omega, ?_⟩
  cases hstrict : h.registry.config.strictBinding with
  | false => exact Or.inl rfl
  | true => exact Or.inr (hbinding hstrict)

/-- A session that may be had is had, if there is room for its replay. -/
theorem fits_replay (hclaim : h.claim? g = some id) (hs : h.registry.find? id = some s)
    (hfits : h.config.queueCapacity + (s.reclaim g.lastEventId h.now).replay.length + 1
      ≤ Limits.maxQueue) : (h.act (.register g)).2.isFault = false := by
  have hno : ∀ f, (h.register g).2 ≠ .error (.fault f) := by
    rw [register_answer, h.accept_reclaimed hclaim hs]
    exact openClient_fits.mpr hfits
  show (Outcome.ofAnswer (h.register g).2).isFault = false
  cases hout : (h.register g).2 with
  | ok c => rfl
  | error o =>
      cases o with
      | refusal r => rfl
      | fault f => exact absurd hout (hno f)

/-- A registration that nobody waits for leaves the session free, and its retention begins
anew. -/
theorem Sound.place_abandoned (hS : h.Sound hs) (hfault : (h.act (.register g)).2.isFault = false)
    (hclaim : h.claim? g = some id) (hs : h.registry.find? id = some s)
    (hgone : g.abandoned = true) :
    (h.act (.register g)).1.place id = ⟨some (s.abandon g.lastEventId h.now), none⟩ := by
  obtain ⟨s', hs', -, hplace⟩ := hS.register_claimed hfault hclaim
  obtain rfl := Option.some.inj (hs.symm.trans hs')
  rw [hplace, Place.answer, if_pos hgone]
  rfl

/-- The next registration, with and without the one before. -/
theorem Sound.replay?_abandoned {hs' : List Client} {now : Nat} {last : Option EventId}
    {replay : List Event} (hS : h.Sound hs) (hS' : h'.Sound hs') (hwf : s.Wf)
    (hidle : s.active = false)
    (hterms : h'.terms = h.terms) (hplace : h.place id = ⟨some (s.missAll es), none⟩)
    (hplace' : h'.place id = ⟨some ((s.abandon last now).missAll es), none⟩)
    (hseen : s.lastSeen ≤ now)
    (hlast : g.lastEventId = last) (hback : h.replay? id g = some replay) :
    ∃ replay', h'.replay? id g = some replay' ∧ replay' <:+ replay ∧
      (replay' = replay ↔ s.Unnoticed last es) := by
  obtain ⟨hfault, hclaim, s₀, hs₀, rfl⟩ := hS.replay?_iff.mp hback
  obtain rfl : s₀ = s.missAll es := Option.some.inj (hs₀.symm.trans (congrArg Place.session hplace))
  have hs₁ : h'.registry.find? id = some ((s.abandon last now).missAll es) :=
    congrArg Place.session hplace'
  obtain ⟨-, hseen₀, hmeta₀⟩ := s.missAll_rest es
  obtain ⟨hidle₁, hseen₁, hmeta₁⟩ := (s.abandon last now).missAll_rest es
  have hclaim' : h'.claim? g = some id :=
    claim?_later hclaim hterms hs₀ hplace' hidle₁ (hmeta₁.trans hmeta₀.symm)
      (by rw [hseen₀, hseen₁]; exact hseen)
  obtain ⟨n, m, hnm, hm, hreplay, hreplay', hiff⟩ := hwf.cuts hidle last es now h.now
  have hnow : h'.now = h.now := congrArg Terms.now hterms
  have hconfig : h'.config = h.config := congrArg Terms.config hterms
  have hfault' : (h'.act (.register g)).2.isFault = false := by
    have hfits := replay_fits hfault hclaim hs₀
    refine fits_replay hclaim' hs₁ ?_
    rw [hlast, hreplay, List.length_map, List.length_drop] at hfits
    rw [hnow, hlast, hconfig, hreplay', List.length_map, List.length_drop]
    omega
  refine ⟨_, hS'.replay?_iff.mpr ⟨hfault', hclaim', _, hs₁, rfl⟩, ?_⟩
  rw [hnow, hlast, hreplay, hreplay', ← hiff]
  refine ⟨(List.drop_suffix_drop_left _ hnm).map _, ?_, ?_⟩
  · intro hsame
    have hlen := congrArg List.length hsame
    rw [List.length_map, List.length_map, List.length_drop, List.length_drop] at hlen
    omega
  · rintro rfl
    rfl

end Hub

namespace Run

variable {past past' : List Occurrence} {h h' : Hub} {id : SessionId} {s : Session}
    {acts : List Act}

/-- What messages and time make of a session that nobody holds. -/
theorem quiet (hrun : Run past h) (hplace : h.place id = ⟨some s, none⟩) (hidle : s.active = false)
    (hquiet : ∀ a ∈ acts, a.quiet) (hplay : EventRelay.play acts (past, h) = some (past', h')) :
    h'.place id = ⟨some (s.missAll (acts.flatMap (Act.leaves id))), none⟩ ∧
      h'.terms = { h.terms with now := acts.foldl Act.clock h.now } := by
  induction acts generalizing past h s with
  | nil =>
      obtain ⟨rfl, rfl⟩ := Prod.mk.inj (Option.some.inj hplay)
      exact ⟨hplace, rfl⟩
  | cons a acts ih =>
      rw [EventRelay.play] at hplay
      split at hplay
      · next hok =>
          obtain ⟨ha, hacts⟩ := List.forall_mem_cons.mp hquiet
          have hS := hrun.sound
          have hterms := hS.terms_act a hok.2
          have hnow : (h.act a).1.now = a.clock h.now := congrArg Terms.now hterms
          obtain ⟨hplace', hterms'⟩ := ih (hrun.step a hok.1 hok.2)
            (hS.place_quiet hplace hidle ha) ((s.missAll_rest _).1.trans hidle) hacts hplay
          rw [Session.missAll_append] at hplace'
          refine ⟨hplace', ?_⟩
          rw [hterms', hnow, hterms]
          rfl
      · cases hplay

theorem lastSeen_le (hrun : Run past h) (hs : h.registry.find? id = some s)
    (hfree : Table.get? h.clients id = none) : s.lastSeen ≤ h.now := by
  induction hrun generalizing s with
  | start hempty hstart =>
      rw [(Broker.start_hub hstart).1, Registry.find?, hempty] at hs
      cases hs
  | @step past h hrun a hnew hfault ih =>
      have hterms := hrun.sound.terms_act a hfault
      have hnow : h.now ≤ (h.act a).1.now := by
        rw [show (h.act a).1.now = a.clock h.now from congrArg Terms.now hterms]
        cases a with
        | wait span => exact Nat.le_add_right ..
        | _ => exact Nat.le_refl _
      rcases (hrun.sound.step a hfault id).lastSeen hfree hs with hseen | ⟨hfree₀, s₀, hs₀, hseen⟩
      · exact hseen ▸ hnow
      · exact hseen ▸ (ih hs₀ hfree₀).trans hnow

/-- **What a registration that nobody waited for leaves behind.** Let a session be given to a
caller that has gone away, let only messages and time pass, and let the session be asked for
again with the same id presented. If the replay would have been `replay` without the lost
registration, the session is given back with it too, and its replay is an end of `replay`. It
is all of it exactly if `Session.Unnoticed` holds: nothing is presented, or what is presented
is found where it would have been, or nothing is there any more of what was handed out. -/
theorem abandonment (hrun : Run past h) {g g' : Registration} {given replay : List Event}
    {past₀ past₁ : List Occurrence} {h₀ h₁ : Hub} (hgone : g.abandoned = true)
    (hgiven : h.replay? id g = some given) (hquiet : ∀ a ∈ acts, a.quiet)
    (hwithout : EventRelay.play acts (past, h) = some (past₀, h₀))
    (hwith : EventRelay.play (.register g :: acts) (past, h) = some (past₁, h₁))
    (hlast : g'.lastEventId = g.lastEventId) (hback : h₀.replay? id g' = some replay) :
    ∃ s replay', h.registry.find? id = some s ∧ h₁.replay? id g' = some replay' ∧
      replay' <:+ replay ∧
      (replay' = replay ↔ s.Unnoticed g.lastEventId (acts.flatMap (Act.leaves id))) := by
  have hS := hrun.sound
  obtain ⟨hfault, hclaim, s, hs, -⟩ := hS.replay?_iff.mp hgiven
  obtain ⟨-, hfree, s', hs', hidle, -, -⟩ := h.claim?_eq_some hclaim
  obtain rfl := Option.some.inj (hs.symm.trans hs')
  rw [EventRelay.play] at hwith
  split at hwith
  · next hok =>
      have hrun' := hrun.step (.register g) hok.1 hfault
      have hterms := hS.terms_act (.register g) hfault
      have hnow : (h.act (.register g)).1.now = h.now := congrArg Terms.now hterms
      obtain ⟨hplace₀, hterms₀⟩ := hrun.quiet (by rw [Hub.place, hs, hfree]) hidle hquiet hwithout
      obtain ⟨hplace₁, hterms₁⟩ :=
        hrun'.quiet (hS.place_abandoned hfault hclaim hs hgone) rfl hquiet hwith
      have hrun₀ : Run past₀ h₀ := Run.play hrun hwithout
      have hrun₁ : Run past₁ h₁ := Run.play hrun' hwith
      obtain ⟨replay', hback', hcompared⟩ := hrun₀.sound.replay?_abandoned hrun₁.sound
        ((hS.place id).wf s hs).1 hidle (by rw [hterms₁, hterms₀, hterms, hnow]) hplace₀ hplace₁
        (hrun.lastSeen_le hs hfree) hlast hback
      exact ⟨s, replay', hs, hback', hcompared⟩
  · cases hwith

end Run

/-- A message to everyone. -/
def Act.news (id : EventId) : Act := .dispatch ⟨⟨id, "news", [], false⟩, .everyone⟩

/-- A session that loses its client and misses two events. -/
def Act.away : List Act :=
  [.register (.numbered 1 none none [.ok "S1"]), .release "S1" none, .news "A", .news "B"]

/-- A caller that asks for the session and goes away before it is answered. -/
def Registration.gone (n : Nat) (last : Option EventId) : Registration :=
  { Registration.numbered n (some "S1") last [] with abandoned := true }

/-- A client that presents nothing gets all that was missed, before and after the registration
that was lost. -/
theorem abandonment_unnoticed : ∃ past h past₀ h₀ past₁ h₁ replay, Run past h ∧
    play [.news "C"] (past, h) = some (past₀, h₀) ∧
    play [.register (.gone 2 none), .news "C"] (past, h) = some (past₁, h₁) ∧
    replay.map (·.id) = ["A", "B", "C"] ∧
    h₀.replay? "S1" (.numbered 3 (some "S1") none []) = some replay ∧
    h₁.replay? "S1" (.numbered 3 (some "S1") none []) = some replay := by
  have hplays : ((play Act.away ([], Hub.opened {} {})).bind fun s =>
      (play [.news "C"] s).bind fun s₀ =>
      (play [.register (.gone 2 none), .news "C"] s).map fun s₁ =>
        ((s.2.replay? "S1" (.gone 2 none)).isSome,
          (s₀.2.replay? "S1" (.numbered 3 (some "S1") none [])).map (List.map (·.id))))
      = some (true, some ["A", "B", "C"]) := by decide +kernel
  obtain ⟨⟨past, h⟩, haway, hplays⟩ := Option.bind_eq_some_iff.mp hplays
  obtain ⟨⟨past₀, h₀⟩, hwithout, hplays⟩ := Option.bind_eq_some_iff.mp hplays
  obtain ⟨⟨past₁, h₁⟩, hwith, hseen⟩ := Option.map_eq_some_iff.mp hplays
  obtain ⟨hgiven, hback⟩ := Prod.mk.inj hseen
  obtain ⟨given, hgiven⟩ := Option.isSome_iff_exists.mp hgiven
  obtain ⟨replay, hback, hids⟩ := Option.map_eq_some_iff.mp hback
  have hrun : Run past h := Run.play (Run.opened (by decide) {}) haway
  have hlast : (Registration.numbered 3 (some "S1") none []).lastEventId
      = (Registration.gone 2 none).lastEventId := rfl
  obtain ⟨s, replay', -, hback', -, hsame⟩ := hrun.abandonment rfl hgiven
    (List.forall_mem_singleton.mpr (show (Act.news "C").quiet from trivial)) hwithout hwith
      hlast hback
  obtain rfl := hsame.mpr (.blank rfl)
  exact ⟨past, h, past₀, h₀, past₁, h₁, _, hrun, hwithout, hwith, hids, hback, hback'⟩

/-- A client has seen one of the two events and asks for the session, and its connection breaks
before it is answered. When it asks again and presents the same event it does not get the other
one, which it would have got the first time. -/
theorem abandoned_replay_lost : ∃ past h past₁ h₁, Run past h ∧
    play [.register (.gone 2 (some "A"))] (past, h) = some (past₁, h₁) ∧
    h.replay? "S1" (.gone 2 (some "A")) = some [⟨"B", "news", [], true⟩] ∧
    h.replay? "S1" (.numbered 3 (some "S1") (some "A") []) = some [⟨"B", "news", [], true⟩] ∧
    h₁.replay? "S1" (.numbered 3 (some "S1") (some "A") []) = some [] := by
  have hplays : ((play Act.away ([], Hub.opened {} {})).bind fun s =>
      (play [.register (.gone 2 (some "A"))] s).map fun s₁ =>
        (s.2.replay? "S1" (.gone 2 (some "A")),
          s.2.replay? "S1" (.numbered 3 (some "S1") (some "A") []),
          s₁.2.replay? "S1" (.numbered 3 (some "S1") (some "A") [])))
      = some (some [⟨"B", "news", [], true⟩], some [⟨"B", "news", [], true⟩], some []) := by
    decide +kernel
  obtain ⟨⟨past, h⟩, haway, hplays⟩ := Option.bind_eq_some_iff.mp hplays
  obtain ⟨⟨past₁, h₁⟩, hwith, hseen⟩ := Option.map_eq_some_iff.mp hplays
  obtain ⟨hgiven, hback, hback'⟩ := by simpa only [Prod.mk.injEq] using hseen
  exact ⟨past, h, past₁, h₁, Run.play (Run.opened (by decide) {}) haway, hwith, hgiven, hback,
    hback'⟩

end EventRelay
