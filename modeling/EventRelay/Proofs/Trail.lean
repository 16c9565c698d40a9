import EventRelay.Proofs.Step

/-!
# Runs that can be looked back upon

A `Run` tells what was done and answered. A `Trail` also keeps the hub that each act
found, so that one can speak of a point of the past: a `Moment` is an act with the hub
before it, and the latest moment stands first. What is only reported, and the timer of
the background sweep, may change between two moments.

The lemmas go from a moment to what came after it: `Trail.since` is induction from a
moment on, and `Trail.turning_point` finds the moment at which something came about.
-/

namespace EventRelay

/-- An act and the hub that it found. -/
structure Moment where
  act : Act
  before : Hub

namespace Moment

variable (x : Moment)

def after : Hub := (x.before.act x.act).1

def outcome : Outcome := (x.before.act x.act).2

def occurrence : Occurrence := ⟨x.act, x.outcome⟩

/-- When it was. -/
def time : Nat := x.before.now

theorem handle?_eq_some {x : Moment} {c : Client} :
    x.occurrence.handle? = some c ↔ x.outcome = .admitted c := by
  rw [Occurrence.handle?, occurrence]
  cases x.outcome <;> simp

end Moment

/-- What can be reached from a new broker over an empty registry. -/
inductive Trail : List Moment → Hub → Prop
  | start {config : Broker.Config} {registry : Registry} {b : Broker}
      (hempty : registry.sessions = []) (hstart : Broker.start config registry = .ok b) :
      Trail [] b.hub
  | step {past : List Moment} {h : Hub} (htrail : Trail past h) (a : Act)
      (hnew : a.newcomer (past.map Moment.occurrence)) (hfault : (h.act a).2.isFault = false) :
      Trail (⟨a, h⟩ :: past) (h.act a).1
  | aside {past : List Moment} {h h' : Hub} (htrail : Trail past h) (hsame : h.Untouched h') :
      Trail past h'

namespace Hub

theorem Untouched.refl (h : Hub) : h.Untouched h := ⟨rfl, rfl, rfl, rfl, rfl, fun _ _ hmem => hmem⟩

theorem Untouched.trans {h h' h'' : Hub} (hu : h.Untouched h') (hu' : h'.Untouched h'') :
    h.Untouched h'' :=
  ⟨hu'.sessions.trans hu.sessions, hu'.clients.trans hu.clients, hu'.closed.trans hu.closed,
    hu'.count.trans hu.count, hu'.terms.trans hu.terms,
    fun id c hmem => hu.journal id c (hu'.journal id c hmem)⟩

end Hub

/-- A new broker has the registry that it was given and no clients. -/
theorem Broker.start_hub {config : Broker.Config} {registry : Registry} {b : Broker}
    (hstart : Broker.start config registry = .ok b) :
    b.hub.registry = registry ∧ b.hub.clients = [] := by
  rw [Broker.start] at hstart
  split at hstart
  · cases hstart
  · obtain rfl := Except.ok.inj hstart
    exact ⟨rfl, rfl⟩

namespace Trail

variable {past later earlier : List Moment} {x : Moment} {h : Hub}

theorem sound (htrail : Trail past h) : h.Sound (handles (past.map Moment.occurrence)) := by
  induction htrail with
  | start hempty hstart => exact (Run.start hempty hstart).sound
  | step htrail a hnew hfault ih => exact ih.act a hnew hfault
  | aside htrail hsame ih => exact ih.retouched hsame.retouched

/-! ## Looking back -/

theorem uncons (htrail : Trail (x :: past) h) : Trail past x.before ∧
    x.act.newcomer (past.map Moment.occurrence) ∧ x.outcome.isFault = false ∧
      x.after.Untouched h := by
  generalize hall : x :: past = all at htrail
  induction htrail with
  | start => cases hall
  | @step past' h' htrail a hnew hfault ih =>
      obtain ⟨rfl, rfl⟩ := List.cons.inj hall
      exact ⟨htrail, hnew, hfault, .refl _⟩
  | aside htrail hsame ih =>
      obtain ⟨hbefore, hnew, hfault, hu⟩ := ih hall
      exact ⟨hbefore, hnew, hfault, hu.trans hsame⟩

theorem last (htrail : Trail (x :: past) h) : Trail (x :: past) x.after := by
  obtain ⟨hbefore, hnew, hfault, -⟩ := htrail.uncons
  exact hbefore.step x.act hnew hfault

/-- Any moment of the past is the last one of a trail. -/
theorem cut (htrail : Trail (later ++ x :: earlier) h) : Trail (x :: earlier) x.after := by
  induction later generalizing h with
  | nil => exact htrail.last
  | cons y later ih => exact ih htrail.uncons.1

theorem before (htrail : Trail (later ++ x :: earlier) h) : Trail earlier x.before :=
  htrail.cut.uncons.1

theorem step_last (htrail : Trail (x :: past) h) (id : SessionId) :
    x.before.Step id x.act x.outcome (x.after.place id) := by
  obtain ⟨hbefore, -, hfault, -⟩ := htrail.uncons
  exact hbefore.sound.step x.act hfault id

/-- Induction from a moment on. -/
theorem since {P : List Moment → Hub → Prop} (htrail : Trail (later ++ x :: earlier) h)
    (hfirst : P [] x.after)
    (hstep : ∀ y later, Trail (y :: (later ++ x :: earlier)) y.after → P later y.before →
      P (y :: later) y.after)
    (haside : ∀ later h h', h.Untouched h' → P later h → P later h') : P later h := by
  induction later generalizing h with
  | nil => exact haside _ _ _ htrail.uncons.2.2.2 hfirst
  | cons y later ih =>
      obtain ⟨hbefore, hnew, hfault, hu⟩ := htrail.uncons
      exact haside _ _ _ hu (hstep y later (hbefore.step y.act hnew hfault) (ih hbefore))

/-- What has come about since a moment came about at some moment. -/
theorem turning_point {P : Hub → Prop} (hP : ∀ h h', Hub.Untouched h h' → P h' → P h)
    (htrail : Trail (later ++ x :: earlier) h) (hfirst : ¬ P x.before) (hlast : P h) :
    ∃ newer y older, later ++ [x] = newer ++ y :: older ∧ ¬ P y.before ∧ P y.after := by
  induction later generalizing h with
  | nil => exact ⟨[], x, [], rfl, hfirst, hP _ _ htrail.uncons.2.2.2 hlast⟩
  | cons y later ih =>
      obtain ⟨hbefore, -, -, hu⟩ := htrail.uncons
      by_cases hy : P y.before
      · obtain ⟨newer, z, older, hsplit, hz⟩ := ih hbefore hy
        exact ⟨y :: newer, z, older, by rw [List.cons_append, hsplit, List.cons_append], hz⟩
      · exact ⟨[], y, later ++ [x], rfl, hy, hP _ _ hu hlast⟩

theorem admitted (htrail : Trail (x :: past) h) {g : Registration} {c : Client}
    (hact : x.act = .register g) (hout : x.outcome = .admitted c) :
    ∃ s : Session, x.after.place c.session
        = Place.answer ⟨some s, some (x.before.opening g c.session c.reconnected s.replay)⟩ g
          x.before.terms ∧
      c.id = g.client ∧ c.replayed = s.replay.length ∧
      (c.reconnected = true ∧ x.before.claim? g = some c.session ∧
          (∃ s₀, x.before.registry.find? c.session = some s₀ ∧
            s = s₀.reclaim g.lastEventId x.before.now) ∨
        c.reconnected = false ∧ x.before.claim? g = none ∧
          x.before.registry.find? c.session = none ∧
          s = Session.fresh x.before.registry.config.bufferCapacity g.metadata x.before.now) := by
  have hstep := htrail.step_last c.session
  rw [hact, hout] at hstep
  exact hstep.admitted rfl

/-! ## Time -/

theorem terms_after (htrail : Trail (x :: past) h) :
    h.terms = { x.before.terms with now := x.act.clock x.time } := by
  obtain ⟨hbefore, -, hfault, hu⟩ := htrail.uncons
  exact hu.terms.trans (hbefore.sound.terms_act x.act hfault)

/-- The settings never change, and the clock never goes back. -/
theorem terms_since (htrail : Trail (later ++ x :: earlier) h) :
    h.config = x.before.config ∧ h.registry.config = x.before.registry.config ∧ x.time ≤ h.now := by
  have hclock : ∀ (a : Act) (now : Nat), now ≤ a.clock now := by
    intro a now
    cases a with
    | wait span => exact Nat.le_add_right now span
    | _ => exact Nat.le_refl now
  induction later generalizing h with
  | nil =>
      have hterms := htrail.terms_after
      have hnow : h.now = x.act.clock x.time := congrArg Terms.now hterms
      exact ⟨congrArg Terms.config hterms, congrArg Terms.sessions hterms,
        hnow ▸ hclock x.act x.time⟩
  | cons y later ih =>
      have hterms := htrail.terms_after
      have hnow : h.now = y.act.clock y.time := congrArg Terms.now hterms
      obtain ⟨hconfig, hsessions, htime⟩ := ih htrail.uncons.1
      exact ⟨(congrArg Terms.config hterms).trans hconfig,
        (congrArg Terms.sessions hterms).trans hsessions,
        hnow ▸ htime.trans (hclock y.act y.time)⟩

/-! ## Handles -/

theorem handles_append (later : List Moment) {c : Client}
    (hc : c ∈ handles (earlier.map Moment.occurrence)) :
    c ∈ handles ((later ++ earlier).map Moment.occurrence) := by
  rw [List.map_append, handles, List.filterMap_append]
  exact List.mem_append_right _ hc

theorem handles_admitted {c : Client} (hc : x.outcome = .admitted c) :
    c ∈ handles ((x :: earlier).map Moment.occurrence) :=
  List.mem_filterMap.mpr ⟨x.occurrence, List.mem_map_of_mem (List.mem_cons_self ..),
    Moment.handle?_eq_some.mpr hc⟩

theorem opened (config : Broker.Config) (sessions : Registry.Config)
    (hfits : config.intakeCapacity ≤ Limits.maxQueue) : Trail [] (Hub.opened config sessions) :=
  @Trail.start config { config := sessions } _ rfl (if_neg (Nat.not_lt.mpr hfits))

end Trail

end EventRelay
