import EventRelay.Proofs.Fate
import EventRelay.Proofs.Reading

/-!
# Where the client is in its session's buffer

`Session.Tracked` relates the buffer of a session to what its client has read: the id
the client would present covers only events it has read, and leaves only events it has
not. While the client is connected, `Session.Handing` says which part of the buffer is
still in its queue. Both are kept up by all that can happen at a place
(`Place.Tracked.meets`, `Place.Tracked.read`, `Place.Tracked.reclaim` and so on).

In all of this `es` are the events read so far and `ns` the names that have come up.
-/

namespace EventRelay

variable {control : Bool} {ns ns' : List EventId} {es : List Event}

namespace Session

variable {s : Session}

/-! ## How much an id covers -/

theorem findIdx?_missed (hdistinct : (s.missed.map (·.id)).Nodup) {k : Nat} {e : Event}
    (hk : s.missed[k]? = some e) : s.missed.findIdx? (·.id == e.id) = some k := by
  obtain ⟨hlt, rfl⟩ := List.getElem?_eq_some_iff.mp hk
  rw [List.findIdx?_eq_some_iff_getElem]
  refine ⟨hlt, by simp, ?_⟩
  intro i hi heq
  have hsame : s.missed[i] = s.missed[k] :=
    List.inj_on_of_nodup_map hdistinct (List.getElem_mem _) (List.getElem_mem _)
      (by simpa using heq)
  have hik : i = k := (hdistinct.of_map _).getElem_inj_iff.mp hsame
  omega

theorem acknowledgedBy_at (hdistinct : (s.missed.map (·.id)).Nodup) {k : Nat} {e : Event}
    (hk : s.missed[k]? = some e) (hid : e.id ≠ "") : s.acknowledgedBy (some e.id) = k + 1 :=
  acknowledgedBy_found hid (findIdx?_missed hdistinct hk)

theorem acknowledgedBy_apart {id : EventId} (hid : id ≠ "")
    (h : ∀ e : Event, e ∈ s.missed → e.id ≠ id) :
    s.acknowledgedBy (some id) = s.unacknowledged := by
  refine acknowledgedBy_missing hid ?_
  rw [List.findIdx?_eq_none_iff]
  intro e he
  simpa using h e he

/-- What a client presents is nothing, an event of the buffer, or something else. -/
theorem presented_cases (s : Session) (last : Option EventId) :
    last = none ∨ (∃ (k : Nat) (e : Event), s.missed[k]? = some e ∧ last = some e.id) ∨
      ∃ id, last = some id ∧ ∀ e : Event, e ∈ s.missed → e.id ≠ id := by
  cases last with
  | none => exact Or.inl rfl
  | some id =>
      refine Or.inr ?_
      by_cases h : ∃ e ∈ s.missed, e.id = id
      · obtain ⟨e, he, rfl⟩ := h
        obtain ⟨k, hk⟩ := List.mem_iff_getElem?.mp he
        exact Or.inl ⟨k, e, hk, rfl⟩
      · refine Or.inr ⟨id, rfl, ?_⟩
        intro e he heq
        exact h ⟨e, he, heq⟩

/-! ## The invariant of a session -/

/-- The id that the client would present covers only what it has read, and what the
id leaves the client has not read. -/
structure Tracked (control : Bool) (ns : List EventId) (es : List Event) (s : Session) :
    Prop where
  distinct : (s.missed.map (·.id)).Nodup
  known : ∀ e ∈ s.missed, e.id ∈ ns
  lasting : ∀ e ∈ s.missed, e.counts control = true → e.isControl = false
  covered : ∀ k e, s.missed[k]? = some e → lastRead es = some e.id →
    ∀ x ∈ s.missed.take (k + 1), x.id ∈ es.map (·.id)
  unheard : ∀ e ∈ s.missed.drop (s.acknowledgedBy (lastRead es)), e.counts control = true →
    ∀ x ∈ es, x.counts control = true → x.id ≠ e.id

theorem Tracked.disconnect (ht : s.Tracked control ns es) (now : Nat) :
    (s.disconnect now).Tracked control ns es :=
  ⟨ht.distinct, ht.known, ht.lasting, ht.covered, ht.unheard⟩

theorem Tracked.mono (ht : s.Tracked control ns es) (hsub : ns ⊆ ns') :
    s.Tracked control ns' es :=
  ⟨ht.distinct, fun e he => hsub (ht.known e he), ht.lasting, ht.covered, ht.unheard⟩

theorem mem_of_lastRead_known (hheard : ∀ x ∈ es, x.counts control = true → x.id ∈ ns)
    {id : EventId} (hlast : lastRead es = some id) : id ∈ ns := by
  obtain ⟨x, hx, hplain, rfl⟩ := mem_of_lastRead hlast
  exact hheard x hx (x.counts_of_plain hplain control)

/-! ## Missing an event -/

/-- The events kept are those kept before and the new one, less the oldest if there
was no room. -/
theorem Wf.missed_miss_drop (hwf : s.Wf) (e : Event) :
    ∃ d ≤ 1, (s.miss e).1.missed = (s.missed ++ [e]).drop d ∧
      (s.miss e).1.unacknowledged = s.unacknowledged - d := by
  have hhanded := hwf.miss_unacknowledged e
  by_cases hroom : s.missed.length < s.buffer.capacity
  · rw [if_pos hroom] at hhanded
    exact ⟨0, Nat.zero_le 1, hwf.missed_miss_room e hroom, hhanded⟩
  · rw [if_neg hroom] at hhanded
    exact ⟨1, Nat.le_refl 1, hwf.missed_miss_full e hroom, hhanded⟩

/-- What an id covers, less the event that is displaced, is still covered. -/
theorem acknowledgedBy_le_miss {e : Event} {last : Option EventId}
    (hdistinct : ((s.miss e).1.missed.map (·.id)).Nodup) (hold : (s.missed.map (·.id)).Nodup)
    (hlast : ∀ id, last = some id → id ≠ "" ∧ id ≠ e.id) {d : Nat}
    (hm : (s.miss e).1.missed = (s.missed ++ [e]).drop d)
    (hu : (s.miss e).1.unacknowledged = s.unacknowledged - d) :
    s.acknowledgedBy last ≤ (s.miss e).1.acknowledgedBy last + d := by
  rcases s.presented_cases last with rfl | ⟨k, x, hk, rfl⟩ | ⟨id, rfl, hapart⟩
  · rw [acknowledgedBy_none]
    exact Nat.zero_le _
  · obtain ⟨hfilled, -⟩ := hlast x.id rfl
    rw [acknowledgedBy_at hold hk hfilled]
    by_cases hd : d ≤ k
    · have hlt : k < s.missed.length := (List.getElem?_eq_some_iff.mp hk).1
      have hk' : (s.miss e).1.missed[k - d]? = some x := by
        rw [hm, List.getElem?_drop, Nat.add_sub_cancel' hd, List.getElem?_append_left hlt, hk]
      rw [acknowledgedBy_at hdistinct hk' hfilled]
      omega
    · -- the entry presented is the one that was displaced
      omega
  · obtain ⟨hfilled, hne⟩ := hlast id rfl
    have hapart' : ∀ x : Event, x ∈ (s.miss e).1.missed → x.id ≠ id := by
      intro x hx
      rw [hm] at hx
      rcases List.mem_append.mp (List.mem_of_mem_drop hx) with hx | hx
      · exact hapart x hx
      · rw [List.mem_singleton.mp hx]
        exact hne.symm
    rw [acknowledgedBy_apart hfilled hapart, acknowledgedBy_apart hfilled hapart', hu]
    omega

theorem Tracked.miss (ht : s.Tracked control ns es) (hwf : s.Wf) {e : Event}
    (hfilled : "" ∉ ns) (hheard : ∀ x ∈ es, x.counts control = true → x.id ∈ ns)
    (hfresh : e.id ∉ ns) (hlasting : e.counts control = true → e.isControl = false) :
    (s.miss e).1.Tracked control (e.id :: ns) es := by
  obtain ⟨d, -, hm, hu⟩ := hwf.missed_miss_drop e
  have hmem : ∀ x ∈ (s.miss e).1.missed, x ∈ s.missed ∨ x = e := by
    intro x hx
    rw [hm] at hx
    simpa using List.mem_of_mem_drop hx
  have hdistinct : ((s.missed ++ [e]).map (·.id)).Nodup := by
    rw [List.map_append, List.nodup_append]
    refine ⟨ht.distinct, List.nodup_singleton _, ?_⟩
    intro a ha b hb hab
    obtain ⟨x, hx, rfl⟩ := List.mem_map.mp ha
    obtain rfl : b = e.id := by simpa using hb
    exact hfresh (hab ▸ ht.known x hx)
  have hdistinct' : ((s.miss e).1.missed.map (·.id)).Nodup := by
    rw [hm]
    exact hdistinct.sublist ((List.drop_sublist d _).map _)
  have hlast : ∀ id, lastRead es = some id → id ≠ "" ∧ id ≠ e.id := by
    intro id hid
    have hknown := mem_of_lastRead_known hheard hid
    exact ⟨fun heq => hfilled (heq ▸ hknown), fun heq => hfresh (heq ▸ hknown)⟩
  refine ⟨hdistinct', ?_, ?_, ?_, ?_⟩
  · intro x hx
    rcases hmem x hx with hx | rfl
    · exact List.mem_cons_of_mem _ (ht.known x hx)
    · exact List.mem_cons_self ..
  · intro x hx hcounts
    rcases hmem x hx with hx | rfl
    · exact ht.lasting x hx hcounts
    · exact hlasting hcounts
  · intro k x hk hid y hy
    rw [hm, List.getElem?_drop] at hk
    have hlt : d + k < s.missed.length := by
      by_contra hge
      rw [List.getElem?_append_right (by omega)] at hk
      obtain rfl := List.mem_singleton.mp (List.mem_of_getElem? hk)
      exact (hlast _ hid).2 rfl
    rw [List.getElem?_append_left hlt] at hk
    refine ht.covered (d + k) x hk hid y ?_
    rw [hm, List.take_drop] at hy
    have hy := List.mem_of_mem_drop hy
    rwa [List.take_append_of_le_length (by omega)] at hy
  · intro x hx hcounts y hy hcounts'
    have hle := acknowledgedBy_le_miss hdistinct' ht.distinct hlast hm hu
    have hx' : x ∈ (s.missed ++ [e]).drop (s.acknowledgedBy (lastRead es)) := by
      rw [hm, List.drop_drop] at hx
      exact List.drop_subset_drop_left _ (by omega) hx
    rcases List.mem_append.mp (List.drop_append ▸ hx') with hx' | hx'
    · exact ht.unheard x hx' hcounts y hy hcounts'
    · obtain rfl : x = e := by simpa using List.mem_of_mem_drop hx'
      intro heq
      exact hfresh (heq ▸ hheard y hy hcounts')

/-! ## Coming and going -/

theorem Tracked.fresh (capacity : Nat) (m : Metadata) (now : Nat) :
    (fresh capacity m now).Tracked control ns es := by
  refine ⟨List.nodup_nil, ?_, ?_, ?_, ?_⟩
  · intro e he
    cases he
  · intro e he
    cases he
  · intro k e hk
    cases hk
  · intro e he
    cases List.mem_of_mem_drop he

/-- The event that the client presents is not among those it gets back. -/
theorem Tracked.presented_not_left (ht : s.Tracked control ns es) (hfilled : "" ∉ ns) {e : Event}
    (he : e ∈ s.missed.drop (s.acknowledgedBy (lastRead es))) : lastRead es ≠ some e.id := by
  intro hlast
  obtain ⟨i, hi⟩ := List.mem_iff_getElem?.mp he
  rw [List.getElem?_drop] at hi
  have hid : e.id ≠ "" := fun heq => hfilled (heq ▸ ht.known e (List.mem_of_mem_drop he))
  have hack := acknowledgedBy_at ht.distinct hi hid
  rw [hlast] at hack hi
  omega

theorem Tracked.reclaim (ht : s.Tracked control ns es) (hwf : s.Wf) (hfilled : "" ∉ ns)
    (now : Nat) : (s.reclaim (lastRead es) now).Tracked control ns es := by
  have hm := hwf.missed_reclaim (lastRead es) now
  have hmem : ∀ e ∈ (s.reclaim (lastRead es) now).missed, e ∈ s.missed := by
    intro e he
    rw [hm] at he
    exact List.mem_of_mem_drop he
  refine ⟨?_, fun e he => ht.known e (hmem e he), fun e he => ht.lasting e (hmem e he), ?_, ?_⟩
  · rw [hm]
    exact ht.distinct.sublist ((List.drop_sublist ..).map _)
  · intro k e hk hlast
    have he := List.mem_of_getElem? hk
    rw [hm] at he
    exact absurd hlast (ht.presented_not_left hfilled he)
  · intro e he
    have he := List.mem_of_mem_drop he
    rw [hm] at he
    exact ht.unheard e he

/-! ## Reading -/

/-- A control event that is read is not taken for a place in the buffer. -/
theorem Tracked.read_control (ht : s.Tracked control ns es) {e : Event} (hc : e.isControl = true)
    (hapart : e.counts control = true → ∀ x ∈ s.missed, e.id ≠ x.id) :
    s.Tracked control ns (es ++ [e]) := by
  have hlast : lastRead (es ++ [e]) = lastRead es := by rw [lastRead_concat, if_pos hc]
  refine ⟨ht.distinct, ht.known, ht.lasting, ?_, ?_⟩
  · intro k x hk hid y hy
    rw [hlast] at hid
    rw [List.map_append]
    exact List.mem_append_left _ (ht.covered k x hk hid y hy)
  · intro x hx hcounts y hy hcounts'
    rw [hlast] at hx
    rcases List.mem_append.mp hy with hy | hy
    · exact ht.unheard x hx hcounts y hy hcounts'
    · obtain rfl := List.mem_singleton.mp hy
      exact hapart hcounts' x (List.mem_of_mem_drop hx)

/-- An event of the replay that is read is the place in the buffer that was reached. -/
theorem Tracked.read_replay (ht : s.Tracked control ns es) (hfilled : "" ∉ ns) {j : Nat} {e : Event}
    (hj : s.missed[j]? = some e) (hplain : e.isControl = false)
    (hread : ∀ x ∈ s.missed.take j, x.id ∈ es.map (·.id))
    (hrest : ∀ x ∈ s.missed.drop (j + 1), x.counts control = true →
      ∀ y ∈ es ++ [e.asReplay], y.counts control = true → y.id ≠ x.id) :
    s.Tracked control ns (es ++ [e.asReplay]) := by
  have hlast : lastRead (es ++ [e.asReplay]) = some e.id := by
    rw [lastRead_concat, Event.isControl_asReplay, hplain]
    rfl
  have hid : e.id ≠ "" := fun heq => hfilled (heq ▸ ht.known e (List.mem_of_getElem? hj))
  refine ⟨ht.distinct, ht.known, ht.lasting, ?_, ?_⟩
  · intro k x hk hx y hy
    rw [hlast] at hx
    have hack := acknowledgedBy_at ht.distinct hk (Option.some.inj hx ▸ hid)
    rw [← Option.some.inj hx, acknowledgedBy_at ht.distinct hj hid] at hack
    obtain rfl : j = k := Nat.succ.inj hack
    rw [List.take_add_one, hj] at hy
    rw [List.map_append, List.mem_append]
    rcases List.mem_append.mp hy with hy | hy
    · exact Or.inl (hread y hy)
    · obtain rfl : y = e := by simpa using hy
      exact Or.inr (List.mem_singleton.mpr rfl)
  · intro x hx
    rw [hlast, acknowledgedBy_at ht.distinct hj hid] at hx
    exact hrest x hx

/-- A live event that is read covers the replay before it. -/
theorem Tracked.read_live (ht : s.Tracked control ns es) {e : Event} (hplain : e.isControl = false)
    (hid : e.id ≠ "") (hapart : ∀ x ∈ s.missed, e.id ≠ x.id)
    (hhanded : s.unacknowledged = s.missed.length) : s.Tracked control ns (es ++ [e]) := by
  have hlast : lastRead (es ++ [e]) = some e.id := by
    rw [lastRead_concat, hplain]
    rfl
  refine ⟨ht.distinct, ht.known, ht.lasting, ?_, ?_⟩
  · intro k x hk hx
    rw [hlast] at hx
    exact absurd (Option.some.inj hx) (hapart x (List.mem_of_getElem? hk))
  · intro x hx
    rw [hlast, acknowledgedBy_apart hid (fun y hy => (hapart y hy).symm), hhanded,
      List.drop_length] at hx
    cases hx

/-! ## The queue of the client -/

/-- What was handed out and not read yet is in the queue, after the greeting and before
the live events. -/
structure Handing (control : Bool) (es : List Event) (s : Session) (queue : List Event) :
    Prop where
  handed : s.unacknowledged = s.missed.length
  parts : ∃ j greeting live, queue = greeting ++ (s.missed.drop j).map Event.asReplay ++ live ∧
    (∀ e ∈ greeting, e.isControl = true ∧
      (e.counts control = true → ∀ x ∈ s.missed, e.id ≠ x.id)) ∧
    (∀ e ∈ live, ∀ x ∈ s.missed, e.id ≠ x.id) ∧
    (∀ x ∈ s.missed.take j, x.id ∈ es.map (·.id))

theorem Handing.deliver {queue : List Event} (hh : s.Handing control es queue) {e : Event}
    (hapart : ∀ x ∈ s.missed, e.id ≠ x.id) : s.Handing control es (queue ++ [e]) := by
  obtain ⟨j, greeting, live, rfl, hgreeting, hlive, hread⟩ := hh.parts
  refine ⟨hh.handed, j, greeting, live ++ [e], by simp, hgreeting, ?_, hread⟩
  intro y hy
  rcases List.mem_append.mp hy with hy | hy
  · exact hlive y hy
  · rw [List.mem_singleton.mp hy]
    exact hapart

/-- The first event of the queue is read. -/
theorem Handing.read {e : Event} {rest : List Event} (hh : s.Handing control es (e :: rest))
    (ht : s.Tracked control ns es) (hfilled : "" ∉ ns)
    (hknown : e.counts control = true → e.id ∈ ns)
    (hdistinct : (((es ++ e :: rest).filter (·.counts control)).map (·.id)).Nodup) :
    s.Handing control (es ++ [e]) rest ∧ s.Tracked control ns (es ++ [e]) := by
  obtain ⟨j, greeting, live, hqueue, hgreeting, hlive, hread⟩ := hh.parts
  have hread' : ∀ x ∈ s.missed.take j, x.id ∈ (es ++ [e]).map (·.id) := by
    intro x hx
    rw [List.map_append]
    exact List.mem_append_left _ (hread x hx)
  cases greeting with
  | cons g greeting =>
      obtain ⟨rfl, hrest⟩ := List.cons.inj hqueue
      obtain ⟨hc, hapart⟩ := hgreeting e (List.mem_cons_self ..)
      refine ⟨⟨hh.handed, j, greeting, live, hrest, ?_, hlive, hread'⟩, ht.read_control hc hapart⟩
      intro g hg
      exact hgreeting g (List.mem_cons_of_mem _ hg)
  | nil =>
      cases hj : s.missed[j]? with
      | some y =>
          obtain ⟨hlt, hy⟩ := List.getElem?_eq_some_iff.mp hj
          rw [List.drop_eq_getElem_cons hlt, hy] at hqueue
          obtain ⟨rfl, hrest⟩ := List.cons.inj hqueue
          refine ⟨⟨hh.handed, j + 1, [], live, hrest, by simp, hlive, ?_⟩, ?_⟩
          · intro x hx
            rw [List.take_add_one, hj] at hx
            rcases List.mem_append.mp hx with hx | hx
            · exact hread' x hx
            · obtain rfl : x = y := by simpa using hx
              exact List.mem_map.mpr ⟨_, List.mem_append_right _ (List.mem_singleton_self _), rfl⟩
          · cases hc : y.isControl with
            | true =>
                refine ht.read_control hc ?_
                intro hcounts
                have hplain := ht.lasting y (List.mem_of_getElem? hj) hcounts
                cases hc.symm.trans hplain
            | false =>
                refine ht.read_replay hfilled hj hc hread ?_
                intro x hx hcounts z hz hcounts'
                rw [List.append_cons, List.filter_append, List.map_append, List.nodup_append]
                  at hdistinct
                refine hdistinct.2.2 _ (List.mem_map_of_mem (List.mem_filter.mpr ⟨hz, hcounts'⟩)) _
                  (List.mem_map.mpr ⟨x.asReplay, List.mem_filter.mpr ⟨?_, hcounts⟩, rfl⟩)
                rw [hrest]
                exact List.mem_append_left _ (List.mem_map_of_mem hx)
      | none =>
          have hge : s.missed.length ≤ j := List.getElem?_eq_none_iff.mp hj
          rw [List.drop_eq_nil_of_le hge] at hqueue
          obtain rfl : e :: rest = live := hqueue
          have hapart := hlive e (List.mem_cons_self ..)
          refine ⟨⟨hh.handed, j, [], rest, ?_, by simp, ?_, hread'⟩, ?_⟩
          · rw [List.drop_eq_nil_of_le hge]
            rfl
          · intro x hx
            exact hlive x (List.mem_cons_of_mem _ hx)
          · cases hc : e.isControl with
            | true => exact ht.read_control hc fun _ => hapart
            | false =>
                have hid : e.id ≠ "" := fun heq =>
                  hfilled (heq ▸ hknown (e.counts_of_plain hc control))
                exact ht.read_live hc hid hapart hh.handed

end Session

namespace Place

/-! ## The invariant of a place -/

/-- The events on their way to the client. -/
def queue (p : Place) : List Event :=
  match p.slot with
  | none => []
  | some slot => slot.channel.queue

/-- No event was read, or is about to be, that was read before; and it is known where the
client is. -/
structure Tracked (control : Bool) (ns : List EventId) (es : List Event) (p : Place) : Prop where
  distinct : (((es ++ p.queue).filter (·.counts control)).map (·.id)).Nodup
  known : ∀ e ∈ es ++ p.queue, e.counts control = true → e.id ∈ ns
  session : ∀ s, p.session = some s → s.Tracked control ns es
  handing : ∀ s slot, p.session = some s → p.slot = some slot →
    s.Handing control es slot.channel.queue

variable {p q : Place} {t : Terms}

theorem Tracked.mono (ht : p.Tracked control ns es) (hsub : ns ⊆ ns') : p.Tracked control ns' es :=
  ⟨ht.distinct, fun e he hcounts => hsub (ht.known e he hcounts),
    fun s hs => (ht.session s hs).mono hsub, ht.handing⟩

/-- Nobody holds the session any more, whatever happens to its buffer. -/
theorem Tracked.abandoned (ht : p.Tracked control ns es) (hsub : ns ⊆ ns')
    {session : Option Session} (hsession : ∀ s, session = some s → s.Tracked control ns' es) :
    (Place.mk session none).Tracked control ns' es := by
  have hsublist : List.Sublist (es ++ []) (es ++ p.queue) :=
    (List.Sublist.refl es).append (List.nil_sublist _)
  refine ⟨ht.distinct.sublist ((hsublist.filter _).map _), ?_, hsession, ?_⟩
  · intro e he hcounts
    exact hsub (ht.known e (hsublist.subset he) hcounts)
  · intro s slot hs hslot
    cases hslot

/-- The slot changed, but not its queue. -/
theorem Tracked.requeue (ht : p.Tracked control ns es) {slot : Slot} (hslot : p.slot = some slot)
    (slot' : Slot) (hqueue : slot'.channel.queue = slot.channel.queue) :
    Tracked control ns es { p with slot := some slot' } := by
  have hsame : (Place.mk p.session (some slot')).queue = p.queue := by
    rw [queue, queue, hslot]
    exact hqueue
  refine ⟨hsame ▸ ht.distinct, hsame ▸ ht.known, ht.session, ?_⟩
  intro s slot₁ hs hslot₁
  obtain rfl := Option.some.inj hslot₁
  rw [hqueue]
  exact ht.handing s slot hs hslot

theorem Tracked.vacate (ht : p.Tracked control ns es) : (p.vacate t).Tracked control ns es := by
  unfold Place.vacate
  split
  · exact ht
  · refine ht.abandoned (List.Subset.refl ns) ?_
    intro s hs
    obtain ⟨s', hs', rfl⟩ := Option.map_eq_some_iff.mp hs
    exact (ht.session s' hs').disconnect t.now

theorem check_channel (slot : Slot) (patience now : Nat) :
    (slot.check patience now).1.channel = slot.channel := by
  unfold Slot.check
  split
  · rfl
  · split <;> rfl

theorem Tracked.inspect (ht : p.Tracked control ns es) : (p.inspect t).Tracked control ns es := by
  unfold Place.inspect Place.judge
  split
  · exact ht
  · next slot hslot =>
      split
      · exact ht.vacate
      · exact ht.requeue hslot _ (congrArg Channel.queue (check_channel slot _ _))

theorem Tracked.leave (ht : p.Tracked control ns es) (c : ClientId) :
    (p.leave c).Tracked control ns es := by
  unfold Place.leave
  split
  · exact ht
  · next slot hslot => exact ht.requeue (Option.filter_eq_some_iff.mp hslot).1 _ rfl

theorem Tracked.expire (ht : p.Tracked control ns es) : (p.expire t).Tracked control ns es := by
  refine ⟨ht.distinct, ht.known, ?_, ?_⟩
  · intro s hs
    exact ht.session s (Option.filter_eq_some_iff.mp hs).1
  · intro s slot hs hslot
    exact ht.handing s slot (Option.filter_eq_some_iff.mp hs).1 hslot

/-! ## Events that come -/

theorem nodup_counts (e : Event) : (([e].filter (·.counts control)).map (·.id)).Nodup := by
  cases hc : e.counts control <;> simp [hc]

/-- An event that is new meets any of its fates. -/
theorem Tracked.meets {keeps : Session → Session → Prop} {e : Event} {f : Fate} {n : Nat}
    (ht : p.Tracked control ns es) (hp : p.Sound n) (hm : Meets keeps e t f p q)
    (hfresh : e.id ∉ ns)
    (hkeeps : ∀ s s', s.Wf → s.Tracked control ns es → keeps s s' →
      s'.Tracked control (e.id :: ns) es) :
    q.Tracked control (e.id :: ns) es := by
  have hsub : ns ⊆ e.id :: ns := List.subset_cons_self _ _
  cases hm with
  | kept hidle hkept =>
      refine ht.abandoned hsub ?_
      intro s hs
      obtain rfl := Option.some.inj hs
      exact hkeeps _ _ (hp.wf _ rfl).1 (ht.session _ rfl) hkept
  | @delivered s slot hactive hreads hroom =>
      have hqueue : es ++ (slot.taking [e] t.now).channel.queue = es ++ slot.channel.queue ++ [e] :=
        (List.append_assoc ..).symm
      refine ⟨?_, ?_, ?_, ?_⟩
      · show (((es ++ (slot.taking [e] t.now).channel.queue).filter _).map _).Nodup
        rw [hqueue, List.filter_append, List.map_append, List.nodup_append]
        refine ⟨ht.distinct, ?_, ?_⟩
        · exact nodup_counts e
        · intro a ha b hb hab
          obtain ⟨x, hx, rfl⟩ := List.mem_map.mp ha
          obtain ⟨hx, hcounts⟩ := List.mem_filter.mp hx
          obtain ⟨y, hy, rfl⟩ := List.mem_map.mp hb
          obtain rfl := List.mem_singleton.mp (List.mem_filter.mp hy).1
          exact hfresh (hab ▸ ht.known x hx hcounts)
      · intro x hx hcounts
        have hx : x ∈ es ++ slot.channel.queue ++ [e] := hqueue ▸ hx
        rcases List.mem_append.mp hx with hx | hx
        · exact hsub (ht.known x hx hcounts)
        · rw [List.mem_singleton.mp hx]
          exact List.mem_cons_self ..
      · intro s' hs'
        exact (ht.session s' hs').mono hsub
      · intro s' slot' hs' hslot'
        obtain rfl := Option.some.inj hslot'
        refine (ht.handing s' slot hs' rfl).deliver ?_
        intro x hx heq
        exact hfresh (heq ▸ (ht.session s' hs').known x hx)
  | @dropped s slot hactive hreads hfull hearly =>
      exact (ht.requeue rfl (slot.stall t.now) rfl).mono hsub
  | @handedOver s s' slot hactive hover hkept =>
      refine ht.abandoned hsub ?_
      intro s₁ hs₁
      obtain rfl := Option.some.inj hs₁
      exact hkeeps _ _ ((hp.wf s rfl).1.disconnect t.now)
        ((ht.session s rfl).disconnect t.now) hkept

/-! ## The client reads, and comes back -/

theorem Tracked.read (ht : p.Tracked control ns es) (hfilled : "" ∉ ns) {c : ClientId} {slot : Slot}
    (hslot : p.slot.filter (·.client == c) = some slot) {e : Event} {rest : List Event}
    (hqueue : slot.channel.queue = e :: rest) : (p.read c).Tracked control ns (es ++ [e]) := by
  have hslot' := (Option.filter_eq_some_iff.mp hslot).1
  have hpq : p.queue = e :: rest := by
    rw [queue, hslot']
    exact hqueue
  have hread : p.read c = ⟨p.session,
      some { slot with channel := { slot.channel with queue := rest } }⟩ := by
    unfold Place.read
    rw [hslot]
    simp only [hqueue]
  have happend : es ++ [e] ++ rest = es ++ p.queue := by rw [hpq, List.append_assoc]; rfl
  have hstep : ∀ s, p.session = some s →
      s.Handing control (es ++ [e]) rest ∧ s.Tracked control ns (es ++ [e]) := by
    intro s hs
    refine (hqueue ▸ ht.handing s slot hs hslot').read (ht.session s hs) hfilled ?_ ?_
    · exact ht.known e (by rw [hpq]; simp)
    · exact hpq ▸ ht.distinct
  rw [hread]
  refine ⟨?_, ?_, fun s hs => (hstep s hs).2, ?_⟩
  · show (((es ++ [e] ++ rest).filter _).map _).Nodup
    rw [happend]
    exact ht.distinct
  · show ∀ x ∈ es ++ [e] ++ rest, _
    rw [happend]
    exact ht.known
  · intro s slot₁ hs hslot₁
    obtain rfl := Option.some.inj hslot₁
    exact (hstep s hs).1

/-- A client that comes back and says where it was. -/
theorem Tracked.reclaim {s : Session} (ht : (Place.mk (some s) none).Tracked control ns es)
    (hwf : s.Wf) (hfilled : "" ∉ ns) {greeting : Event} (hcontrol : greeting.isControl = true)
    (hfresh : greeting.counts control = true → greeting.id ∉ ns) (hsub : ns ⊆ ns')
    (hnamed : greeting.counts control = true → greeting.id ∈ ns') (now : Nat) {slot : Slot}
    (hqueue : slot.channel.queue = greeting :: (s.reclaim (lastRead es) now).replay) :
    (Place.mk (some (s.reclaim (lastRead es) now)) (some slot)).Tracked control ns' es := by
  have hs := ht.session s rfl
  have hs' := hs.reclaim hwf hfilled now
  have hm := hwf.missed_reclaim (lastRead es) now
  have hpq : (Place.mk (some (s.reclaim (lastRead es) now)) (some slot)).queue
      = greeting :: (s.reclaim (lastRead es) now).missed.map Event.asReplay := hqueue
  have hold : ∀ x ∈ es, x.counts control = true → x.id ∈ ns :=
    fun x hx => ht.known x (List.mem_append_left _ hx)
  have hleft : ∀ x ∈ (s.reclaim (lastRead es) now).missed, x.counts control = true →
      ∀ y ∈ es, y.counts control = true → y.id ≠ x.id := by
    intro x hx
    rw [hm] at hx
    exact hs.unheard x hx
  refine ⟨?_, ?_, ?_, ?_⟩
  · rw [hpq, List.filter_append, List.map_append, List.nodup_append]
    refine ⟨?_, ?_, ?_⟩
    · exact ht.distinct.sublist (((List.sublist_append_left es _).filter _).map _)
    · have hreplay : ((((s.reclaim (lastRead es) now).missed.map Event.asReplay).filter
          (·.counts control)).map (·.id)).Nodup := by
        refine List.Nodup.sublist (List.filter_sublist.map _) ?_
        rw [List.map_map]
        exact hs'.distinct
      rw [List.filter_cons]
      split
      · next hcounts =>
          rw [List.map_cons, List.nodup_cons]
          refine ⟨?_, hreplay⟩
          intro hmem
          obtain ⟨x, hx, heq⟩ := List.mem_map.mp hmem
          obtain ⟨y, hy, rfl⟩ := List.mem_map.mp (List.mem_filter.mp hx).1
          exact hfresh hcounts (heq ▸ hs'.known y hy)
      · exact hreplay
    · intro a ha b hb hab
      obtain ⟨x, hx, rfl⟩ := List.mem_map.mp ha
      obtain ⟨hx, hcounts⟩ := List.mem_filter.mp hx
      obtain ⟨y, hy, rfl⟩ := List.mem_map.mp hb
      obtain ⟨hy, hcounts'⟩ := List.mem_filter.mp hy
      rcases List.mem_cons.mp hy with rfl | hy
      · exact hfresh hcounts' (hab ▸ hold x hx hcounts)
      · obtain ⟨z, hz, rfl⟩ := List.mem_map.mp hy
        exact hleft z hz hcounts' x hx hcounts hab
  · rw [hpq]
    intro x hx hcounts
    rcases List.mem_append.mp hx with hx | hx
    · exact hsub (hold x hx hcounts)
    · rcases List.mem_cons.mp hx with rfl | hx
      · exact hnamed hcounts
      · obtain ⟨y, hy, rfl⟩ := List.mem_map.mp hx
        exact hsub (hs'.known y hy)
  · intro s₁ hs₁
    obtain rfl := Option.some.inj hs₁
    exact hs'.mono hsub
  · intro s₁ slot₁ hs₁ hslot₁
    obtain rfl := Option.some.inj hs₁
    obtain rfl := Option.some.inj hslot₁
    refine ⟨hwf.reclaim_unacknowledged _ now, 0, [greeting], [], ?_, ?_, by simp, by simp⟩
    · rw [List.drop_zero, List.append_nil]
      exact hqueue
    · intro e he
      obtain rfl := List.mem_singleton.mp he
      refine ⟨hcontrol, ?_⟩
      intro hcounts x hx heq
      exact hfresh hcounts (heq ▸ hs'.known x hx)

/-- A client that comes for the first time. -/
theorem Tracked.create (capacity : Nat) (m : Metadata) (now : Nat) {greeting : Event}
    (hcontrol : greeting.isControl = true)
    (hnamed : greeting.counts control = true → greeting.id ∈ ns) {slot : Slot}
    (hqueue : slot.channel.queue = [greeting]) :
    (Place.mk (some (Session.fresh capacity m now)) (some slot)).Tracked control ns [] := by
  have hpq : (Place.mk (some (Session.fresh capacity m now)) (some slot)).queue = [greeting] :=
    hqueue
  refine ⟨?_, ?_, ?_, ?_⟩
  · rw [hpq]
    exact nodup_counts greeting
  · rw [hpq]
    intro e he hcounts
    obtain rfl := List.mem_singleton.mp he
    exact hnamed hcounts
  · intro s hs
    obtain rfl := Option.some.inj hs
    exact .fresh capacity m now
  · intro s slot₁ hs hslot₁
    obtain rfl := Option.some.inj hs
    obtain rfl := Option.some.inj hslot₁
    refine ⟨rfl, 0, [greeting], [], hqueue, ?_, by simp, by simp⟩
    intro e he
    obtain rfl := List.mem_singleton.mp he
    refine ⟨hcontrol, ?_⟩
    intro hcounts x hx
    cases hx

end Place

end EventRelay
