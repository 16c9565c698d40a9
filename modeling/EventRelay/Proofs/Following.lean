import EventRelay.Proofs.Tracked

/-!
# Following one client through a run

The invariant of `EventRelay.Proofs.Tracked` holds of every session of an orderly run
(`Run.tracked`). There is one lemma for each kind of step that means something to the
client: `Hub.tracked_dispatch`, `Hub.tracked_read` and `Hub.tracked_admission`. All other
steps bring up no names and read nothing (`Place.Tracked.onwards`).
-/

namespace EventRelay

variable {control : Bool} {id : SessionId} {past : List Occurrence} {h : Hub}

/-- A step at which nothing is read. -/
theorem Place.Tracked.onwards {p : Place} {o : Occurrence} (hbegins : o.begins id = false)
    (hheard : o.heard? id = none) (ht : p.Tracked control (names control past) (heard id past)) :
    p.Tracked control (names control (o :: past)) (heard id (o :: past)) := by
  rw [heard_cons hbegins, hheard, Option.toList_none, List.append_nil]
  exact ht.mono (List.subset_append_right _ _)

namespace Hub

/-! ## Dispatching -/

theorem tracked_dispatch {hs : List Client} (hS : h.Sound hs) (m : Message)
    (hord : Orderly control id (⟨.dispatch m, .done⟩ :: past))
    (ht : (h.place id).Tracked control (names control past) (heard id past)) :
    ((h.dispatch m).place id).Tracked control (m.event.id :: names control past)
      (heard id past) := by
  have hsub : names control past ⊆ m.event.id :: names control past := List.subset_cons_self _ _
  have hfresh : m.event.id ∉ names control past := hord.fresh (List.mem_singleton.mpr rfl)
  have hfilled : "" ∉ names control past := hord.tail.filled
  have hsent : m ∈ sent (⟨.dispatch m, .done⟩ :: past) := List.mem_cons_self ..
  have hheld : ∀ key, (h.place key).Held := fun key => (hS.place key).held
  cases hs : h.registry.find? id with
  | none =>
      rw [hS.dispatch_absent m hs]
      exact ht.mono hsub
  | some s =>
      by_cases hlive : m.scope = .live
      · have hplace : (h.dispatch m).place id = (h.place id).tell m.event h.terms := by
          obtain ⟨e, scope⟩ := m
          obtain rfl : scope = .live := hlive
          exact place_dispatch_live h hS.clients_nodup e id
        rw [hplace]
        refine ht.meets (hS.place id) ((hheld id).meets_tell hs m.event) hfresh ?_
        rintro s₁ s₂ - hs₁ rfl
        exact hs₁.mono hsub
      · have hlasting : m.event.counts control = true → m.event.isControl = false := by
          intro hcounts
          by_contra hc
          rw [Bool.not_eq_false] at hc
          rw [Event.counts, hc, Bool.not_true, Bool.or_false] at hcounts
          exact hlive (hord.transient hcounts m hsent hc)
        rw [place_dispatch h hS.clients_nodup hheld hlive]
        rcases Nat.le_one_iff_eq_zero_or_eq_one.mp (hord.once m hsent) with hzero | hone
        · rw [hzero]
          exact ht.mono hsub
        · rw [hone]
          refine ht.meets (hS.place id) ((hheld id).meets_receive hs m.event) hfresh ?_
          rintro s₁ s₂ hwf hs₁ rfl
          refine hs₁.miss hwf hfilled ?_ hfresh hlasting
          intro x hx
          exact ht.known x (List.mem_append_left _ hx)

/-! ## Reading -/

/-- Either nothing is read, or the first event of the client's queue. -/
theorem read_cases (h : Hub) (c : Client) :
    ((h.read c).1 = h ∧ ∀ e, (h.read c).2 ≠ .event e) ∨
    ∃ slot e rest, (h.place c.session).slot.filter (·.client == c.id) = some slot ∧
      slot.channel.queue = e :: rest ∧ (h.read c).2 = .event e := by
  rw [← slot?_eq]
  unfold read
  cases hslot : h.slot? c with
  | none => exact Or.inl ⟨rfl, fun _ => Reading.noConfusion⟩
  | some slot =>
      cases hqueue : slot.channel.queue with
      | nil =>
          simp only [hqueue]
          exact Or.inl ⟨trivial, fun _ => Reading.noConfusion⟩
      | cons e rest =>
          refine Or.inr ⟨slot, e, rest, rfl, hqueue, ?_⟩
          simp only [hqueue]

theorem tracked_read (c : Client)
    (hord : Orderly control id (⟨.read c, .reading (h.read c).2⟩ :: past))
    (ht : (h.place id).Tracked control (names control past) (heard id past)) :
    ((h.read c).1.place id).Tracked control
      (names control (⟨.read c, .reading (h.read c).2⟩ :: past))
      (heard id (⟨.read c, .reading (h.read c).2⟩ :: past)) := by
  have hplace := place_read h c id
  rcases read_cases h c with ⟨hsame, hno⟩ | ⟨slot, e, rest, hslot, hqueue, hread⟩
  · rw [hsame]
    refine ht.onwards rfl ?_
    cases hr : (h.read c).2 with
    | event e => exact absurd hr (hno e)
    | pending => rfl
    | closed => rfl
  · rw [hread, hplace]
    by_cases hc : c.session = id
    · subst hc
      have hheard : heard c.session (⟨.read c, .reading (.event e)⟩ :: past)
          = heard c.session past ++ [e] := by
        rw [heard_cons rfl]
        simp [Occurrence.heard?]
      rw [if_pos rfl, hheard]
      exact ht.read hord.tail.filled hslot hqueue
    · rw [if_neg (Ne.symm hc)]
      refine ht.onwards rfl ?_
      simp only [Occurrence.heard?, hc, if_false]

/-! ## Registering -/

/-- A registration ends as its admission did, unless the caller has gone away. -/
theorem register_cases (h : Hub) (g : Registration) : (h.register g).2 = (h.accept g).2 ∧
    ∀ key, (h.register g).1.place key = (h.accept g).1.place key ∨
      (h.register g).1.place key = ((h.accept g).1.place key).vacate (h.accept g).1.terms := by
  refine ⟨register_answer h g, ?_⟩
  unfold register
  cases h.accept g with
  | mk h' answer =>
      cases answer with
      | error o => exact fun key => Or.inl rfl
      | ok c =>
          dsimp only
          split
          · exact fun key =>
              place_unregister (h'.note (.registrationAbandoned c.session)) c.session
                (some c.id) key
          · exact fun key => Or.inl rfl

theorem tracked_admission {hs : List Client} (hS : h.Sound hs) {g : Registration} {h' : Hub}
    {answer : Except Obstacle Client} (hadm : h.Admission g (h', answer))
    (hord : Orderly control id (⟨.register g, .ofAnswer answer⟩ :: past))
    (ht : (h.place id).Tracked control (names control past) (heard id past)) :
    (h'.place id).Tracked control (names control (⟨.register g, .ofAnswer answer⟩ :: past))
      (heard id (⟨.register g, .ofAnswer answer⟩ :: past)) := by
  have hnamed : ∀ e : Event, e.isControl = true → e.counts control = true → e.id = g.greeting →
      e.id ∈ (Occurrence.mk (.register g) (Outcome.ofAnswer answer)).names control := by
    intro e hc hcounts hid
    rw [Event.counts, hc, Bool.not_true, Bool.or_false] at hcounts
    rw [Occurrence.names, hcounts, hid]
    exact List.mem_singleton.mpr rfl
  cases hadm with
  | refused hclaim hout =>
      rw [hout.place]
      exact ht.onwards rfl rfl
  | @reclaimed _ key s hclaim hs hin =>
      rw [hin.place]
      by_cases hkey : id = key
      · subst hkey
        obtain ⟨-, hfree, -⟩ := claim?_eq_some h hclaim
        have hlast : g.lastEventId = lastRead (heard id past) := hord.faithful.1 g (by
          simp [Occurrence.comeback?, Outcome.ofAnswer])
        have hplace : h.place id = ⟨some s, none⟩ := by rw [place, hs, hfree]
        rw [if_pos rfl, hlast]
        rw [hplace] at ht
        rw [heard_cons (by simp [Occurrence.begins, Outcome.ofAnswer])]
        simp only [Occurrence.heard?, Outcome.ofAnswer, Option.toList_none, List.append_nil]
        refine ht.reclaim ((hS.place id).wf s hs).1 hord.tail.filled (by rfl) ?_
          (List.subset_append_right _ _) ?_ h.now rfl
        · intro hcounts
          exact hord.fresh (hnamed _ (by rfl) hcounts rfl)
        · intro hcounts
          exact List.mem_append_left _ (hnamed _ (by rfl) hcounts rfl)
      · rw [if_neg hkey]
        refine ht.onwards ?_ rfl
        simp [Occurrence.begins, Outcome.ofAnswer]
  | @created _ key hclaim hs hin =>
      rw [hin.place]
      by_cases hkey : id = key
      · subst hkey
        have hheard : heard id (⟨.register g, .ofAnswer (.ok ⟨g.client, id, false, 0⟩)⟩ :: past)
            = [] := by
          rw [heard, if_pos (by simp [Occurrence.begins, Outcome.ofAnswer])]
        rw [if_pos rfl, hheard]
        refine .create _ _ _ (by rfl) ?_ rfl
        intro hcounts
        exact List.mem_append_left _ (hnamed _ (by rfl) hcounts rfl)
      · rw [if_neg hkey]
        refine ht.onwards ?_ rfl
        simp [Occurrence.begins, Outcome.ofAnswer, Ne.symm hkey]

end Hub

/-! ## Every run -/

open Hub in
/-- **Every client of an orderly run is where its session takes it to be.** -/
theorem Run.tracked (hrun : Run past h) (hord : Orderly control id past) :
    (h.place id).Tracked control (names control past) (heard id past) := by
  induction hrun with
  | @start config registry b hempty hstart =>
      rw [Broker.start] at hstart
      split at hstart
      · cases hstart
      · obtain rfl := Except.ok.inj hstart
        refine ⟨List.nodup_nil, ?_, ?_, ?_⟩
        · intro e he
          exact (List.not_mem_nil he).elim
        · intro s hs
          have hfind : Table.get? registry.sessions id = some s := hs
          rw [hempty] at hfind
          cases hfind
        · intro s slot hs hslot
          cases hslot
  | @step past h hrun a hnew hfault ih =>
      have ht := ih hord.tail
      have hS := hrun.sound
      cases a with
      | register g =>
          obtain ⟨hanswer, hplace⟩ := register_cases h g
          have hok := Outcome.ne_fault hfault
          rw [hanswer] at hok
          have hadm := accept_cases h g (fun _ => hS.free) hok
          simp only [act, hanswer] at hord ⊢
          generalize h.accept g = accepted at hadm hord hplace ⊢
          obtain ⟨h', answer⟩ := accepted
          have ht' := tracked_admission hS hadm hord ht
          rcases hplace id with heq | heq
          · rw [heq]
            exact ht'
          · rw [heq]
            exact ht'.vacate
      | release key client =>
          have ht' := ht.onwards (o := ⟨.release key client, .done⟩) rfl rfl
          rcases place_release h key client id with heq | heq
          · rw [act, heq]
            exact ht'
          · rw [act, heq]
            exact ht'.vacate
      | dispatch m =>
          have ht' := tracked_dispatch hS m hord ht
          have hheard : heard id (⟨.dispatch m, .done⟩ :: past) = heard id past := by
            rw [heard_cons rfl]
            exact List.append_nil _
          show ((h.dispatch m).place id).Tracked control (m.event.id :: names control past)
            (heard id (⟨.dispatch m, .done⟩ :: past))
          rw [hheard]
          exact ht'
      | reap =>
          rw [act, place_reap h hS.clients_nodup]
          exact (ht.onwards rfl rfl).inspect
      | stop =>
          rw [act, place_closeAll]
          exact (ht.onwards rfl rfl).vacate
      | read c => exact tracked_read c hord ht
      | leave c =>
          rw [act, place_leave]
          split
          · exact (ht.onwards rfl rfl).leave c.id
          · exact ht.onwards rfl rfl
      | wait span => exact ht.onwards rfl rfl
      | sweep =>
          rw [act, place_sweep h hS.sessions_nodup]
          exact (ht.onwards rfl rfl).expire
      | look key =>
          rw [act, place_lookup]
          split
          · exact (ht.onwards rfl rfl).expire
          · exact ht.onwards rfl rfl
      | ask key claimant => exact ht.onwards rfl rfl

/-! ## Nothing is read twice -/

/-- **Nothing is read twice.** A client that always says what it has read last never
reads an event of a producer twice, over all its connections. If the names of control
events are told apart as well, it reads nothing at all twice. -/
theorem Run.read_once (hrun : Run past h) (hord : Orderly false id past) :
    (((heard id past).filter fun e => !e.isControl).map (·.id)).Nodup ∧
    (Orderly true id past → ((heard id past).map (·.id)).Nodup) := by
  have hsub : List.Sublist (heard id past) (heard id past ++ (h.place id).queue) :=
    List.sublist_append_left _ _
  constructor
  · exact (hrun.tracked hord).distinct.sublist ((hsub.filter _).map _)
  · intro hord'
    have hdistinct := (hrun.tracked hord').distinct.sublist ((hsub.filter _).map _)
    rwa [List.filter_eq_self.mpr] at hdistinct
    intro e he
    rfl

/-- A client that is cut off twice, the second time in the middle of a replay. -/
def Act.interruptions : List Act :=
  let read (n : Nat) := Act.read ⟨⟨n⟩, "S1", true, 0⟩
  let send (id : EventId) := Act.dispatch ⟨⟨id, "news", [], false⟩, .everyone⟩
  [.register (.numbered 1 none none [.ok "S1"]), send "A", read 1, read 1, .release "S1" none,
    send "B", send "C", .register (.numbered 2 (some "S1") (some "A") []), read 2, read 2,
    .release "S1" none, .register (.numbered 3 (some "S1") (some "B") []), read 3, read 3]

/-- It reads a greeting and an event on each of its connections, all of them different. -/
theorem read_once_interrupted : ∃ past h, Run past h ∧ (heard "S1" past).length = 6 ∧
    ((heard "S1" past).map (·.id)).Nodup := by
  have hplayed : (play Act.interruptions ([], Hub.opened {} {})).any (fun s =>
      decide ((heard "S1" s.1).length = 6 ∧ Orderly false "S1" s.1 ∧ Orderly true "S1" s.1))
      = true := by decide +kernel
  obtain ⟨s, hplay, hs⟩ := (Option.any_eq_true _ _).mp hplayed
  obtain ⟨hlen, hord, hord'⟩ := of_decide_eq_true hs
  have hrun : Run s.1 s.2 := Run.play (Run.opened (by decide) {}) hplay
  exact ⟨s.1, s.2, hrun, hlen, (Run.read_once hrun hord).2 hord'⟩

end EventRelay
