import EventRelay.Proofs.Following

/-!
# Resuming a replay that was cut short

A client that comes back should get every event of the buffer that it has not read
(`Session.Resumes`). It does so exactly if it presents nothing, or an event that is
still in the buffer, or else has read all that was handed out before
(`Run.resumes_iff`).

In the one case that is left the relay is mistaken. An id that is not in the buffer is
taken for that of a live event that came after the last replay. It may also be that of
a live event from before that replay (`replay_lost`), or that of an entry that has been
displaced since; then the unread rest of the replay counts as read and is gone.
-/

namespace EventRelay

namespace Session

variable {control : Bool} {ns : List EventId} {es : List Event} {s : Session}

/-- The replay has every event of the buffer that was not read. -/
def Resumes (s : Session) (es replay : List Event) : Prop :=
  ∀ e ∈ s.missed, e.id ∉ es.map (·.id) → e.asReplay ∈ replay

instance (s : Session) (es replay : List Event) : Decidable (s.Resumes es replay) :=
  inferInstanceAs (Decidable (∀ e ∈ s.missed, e.id ∉ es.map (·.id) → e.asReplay ∈ replay))

/-- Of events that are told apart, those left out of the replay are the covered ones. -/
theorem asReplay_mem_iff (hdistinct : (s.missed.map (·.id)).Nodup) (n : Nat) {e : Event}
    (he : e ∈ s.missed) :
    e.asReplay ∈ (s.missed.drop n).map Event.asReplay ↔ e ∈ s.missed.drop n := by
  constructor
  · intro hmem
    obtain ⟨x, hx, heq⟩ := List.mem_map.mp hmem
    have hid : x.asReplay.id = e.asReplay.id := congrArg Event.id heq
    have hsame := List.inj_on_of_nodup_map hdistinct (List.mem_of_mem_drop hx) he hid
    exact hsame ▸ hx
  · exact List.mem_map_of_mem

/-- Nothing is lost exactly if all that is covered was read. -/
theorem Tracked.resumes_iff_covered (ht : s.Tracked control ns es) (hwf : s.Wf) (now : Nat) :
    s.Resumes es (s.reclaim (lastRead es) now).replay ↔
      ∀ e ∈ s.missed.take (s.acknowledgedBy (lastRead es)), e.id ∈ es.map (·.id) := by
  rw [replay_eq, hwf.missed_reclaim]
  constructor
  · intro hall e he
    by_contra hunread
    have hmem := List.mem_of_mem_take he
    have hleft := (asReplay_mem_iff ht.distinct _ hmem).mp (hall e hmem hunread)
    exact List.disjoint_take_drop (ht.distinct.of_map _) (Nat.le_refl _) he hleft
  · intro hcovered e he hunread
    rw [asReplay_mem_iff ht.distinct _ he]
    rw [← List.take_append_drop (s.acknowledgedBy (lastRead es)) s.missed] at he
    rcases List.mem_append.mp he with he | he
    · exact absurd (hcovered e he) hunread
    · exact he

/-- When nothing is lost, in terms of what the client presents. -/
theorem Tracked.resumes_iff_presented (ht : s.Tracked control ns es) (hwf : s.Wf)
    (hheard : ∀ x ∈ es, x.counts control = true → x.id ∈ ns) (hfilled : "" ∉ ns) (now : Nat) :
    s.Resumes es (s.reclaim (lastRead es) now).replay ↔
      (lastRead es = none ∨ (∃ e ∈ s.missed, lastRead es = some e.id) ∨
        ∀ e ∈ s.missed.take s.unacknowledged, e.id ∈ es.map (·.id)) := by
  rw [ht.resumes_iff_covered hwf now]
  rcases s.presented_cases (lastRead es) with hnone | ⟨k, x, hk, hfound⟩ | ⟨id, hid, hapart⟩
  · rw [hnone, acknowledgedBy_none, List.take_zero]
    simp
  · have hne : x.id ≠ "" := fun heq => hfilled (heq ▸ ht.known x (List.mem_of_getElem? hk))
    have hcovered := ht.covered k x hk hfound
    rw [← acknowledgedBy_at ht.distinct hk hne, ← hfound] at hcovered
    refine iff_of_true hcovered (Or.inr (Or.inl ⟨x, List.mem_of_getElem? hk, hfound⟩))
  · have hne : id ≠ "" := fun heq => hfilled (heq ▸ mem_of_lastRead_known hheard hid)
    rw [hid, acknowledgedBy_apart hne hapart]
    constructor
    · intro hread
      exact Or.inr (Or.inr hread)
    · rintro (hnone | ⟨x, hx, hfound⟩ | hread)
      · cases hnone
      · exact absurd (Option.some.inj hfound).symm (hapart x hx)
      · exact hread

end Session

/-- **When a replay that was cut short is resumed.** A client of an orderly run that
comes back gets every event of the buffer that it has not read, if and only if it
presents nothing, or an event of the buffer, or has read all that was handed out. -/
theorem Run.resumes_iff {past : List Occurrence} {h : Hub} (hrun : Run past h) {id : SessionId}
    (hord : Orderly false id past) {g : Registration} (hclaim : h.claim? g = some id)
    (hlast : g.lastEventId = lastRead (heard id past)) :
    ∃ s s', h.registry.find? id = some s ∧
      (h.registry.reclaim id g.lastEventId).2 = some (s', s'.replay) ∧
      (s.Resumes (heard id past) s'.replay ↔
        (lastRead (heard id past) = none ∨
          (∃ e ∈ s.missed, lastRead (heard id past) = some e.id) ∨
          ∀ e ∈ s.missed.take s.unacknowledged, e.id ∈ (heard id past).map (·.id))) := by
  obtain ⟨-, -, s, hs, -, hexpired, -⟩ := h.claim?_eq_some hclaim
  have ht := hrun.tracked hord
  have hreclaim := Hub.reclaim_eq h.registry hs hexpired g.lastEventId
  refine ⟨s, s.reclaim g.lastEventId h.registry.now, hs, by rw [hreclaim], ?_⟩
  rw [hlast]
  refine (ht.session s hs).resumes_iff_presented ((hrun.sound.place id).wf s hs).1 ?_ hord.filled _
  intro x hx
  exact ht.known x (List.mem_append_left _ hx)

/-! ## A replay that is resumed, and one that is not -/

/-- A client reads a live event, misses two more, and comes back to read `n` events
before it is cut off again. -/
def Act.cutShort (n : Nat) : List Act :=
  let send (id : EventId) := Act.dispatch ⟨⟨id, "news", [], false⟩, .everyone⟩
  [.register (.numbered 1 none none [.ok "S1"]), send "L", .read ⟨⟨1⟩, "S1", false, 0⟩,
    .read ⟨⟨1⟩, "S1", false, 0⟩, .release "S1" none, send "A", send "B",
    .register (.numbered 2 (some "S1") (some "L") [])] ++
  List.replicate n (.read ⟨⟨2⟩, "S1", true, 2⟩) ++ [.release "S1" none]

/-- After the greeting and the first of the two events, the client gets back what it
has not read. -/
theorem resumes_after_first : ∃ past h s s', Run past h ∧ h.registry.find? "S1" = some s ∧
    (h.registry.reclaim "S1" (some "A")).2 = some (s', s'.replay) ∧
    s.Resumes (heard "S1" past) s'.replay := by
  have hplayed : (play (Act.cutShort 2) ([], Hub.opened {} {})).any (fun s =>
      decide (Orderly false "S1" s.1 ∧ lastRead (heard "S1" s.1) = some "A" ∧
        s.2.claim? (.numbered 3 (some "S1") (some "A") []) = some "S1" ∧
        ∀ s₁ ∈ s.2.registry.find? "S1", ∃ e ∈ s₁.missed, some "A" = some e.id)) = true := by
    decide +kernel
  obtain ⟨s, hplay, hs⟩ := (Option.any_eq_true _ _).mp hplayed
  obtain ⟨hord, hlast, hclaim, hkept⟩ := of_decide_eq_true hs
  have hrun : Run s.1 s.2 := Run.play (Run.opened (by decide) {}) hplay
  obtain ⟨s₁, s₂, hfind, hreclaim, hiff⟩ := Run.resumes_iff hrun hord hclaim hlast.symm
  rw [hlast] at hiff
  exact ⟨s.1, s.2, s₁, s₂, hrun, hfind, hreclaim, hiff.mpr (Or.inr (Or.inl (hkept s₁ hfind)))⟩

/-- After the greeting alone, both events are lost: the client still presents the live
event from before the replay. -/
theorem replay_lost : ∃ past h, Run past h ∧ Orderly true "S1" past ∧
    h.claim? (.numbered 3 (some "S1") (some "L") []) = some "S1" ∧
    lastRead (heard "S1" past) = some "L" ∧
    ∃ s s', h.registry.find? "S1" = some s ∧
      (h.registry.reclaim "S1" (some "L")).2 = some (s', []) ∧
      s.missed.map (·.id) = ["A", "B"] ∧ ¬ s.Resumes (heard "S1" past) s'.replay := by
  have hplayed : (play (Act.cutShort 1) ([], Hub.opened {} {})).any (fun s =>
      decide (Orderly true "S1" s.1 ∧
        s.2.claim? (.numbered 3 (some "S1") (some "L") []) = some "S1" ∧
        lastRead (heard "S1" s.1) = some "L" ∧
        ((s.2.registry.find? "S1").any fun s₁ =>
          (s.2.registry.reclaim "S1" (some "L")).2.any fun s₂ =>
            decide (s₂.2 = [] ∧ s₁.missed.map (·.id) = ["A", "B"] ∧
              ¬ s₁.Resumes (heard "S1" s.1) s₂.1.replay)) = true)) = true := by
    decide +kernel
  obtain ⟨s, hplay, hs⟩ := (Option.any_eq_true _ _).mp hplayed
  obtain ⟨hord, hclaim, hlast, hany⟩ := of_decide_eq_true hs
  obtain ⟨s₁, hfind, hany⟩ := (Option.any_eq_true _ _).mp hany
  obtain ⟨⟨s₂, replay⟩, hreclaim, hlost⟩ := (Option.any_eq_true _ _).mp hany
  obtain ⟨hnil, hmissed, hnot⟩ := of_decide_eq_true hlost
  have hrun : Run s.1 s.2 := Run.play (Run.opened (by decide) {}) hplay
  exact ⟨s.1, s.2, hrun, hord, hclaim, hlast, s₁, s₂, hfind, hnil ▸ hreclaim, hmissed, hnot⟩

end EventRelay
