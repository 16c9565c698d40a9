import EventRelay.Proofs.Projection
import EventRelay.Broker.Basic

/-!
# Runs

An `Act` is one step of the event loop, of a client or of the clock, and
`Hub.act` takes it. A `Run` is what can be reached from a new broker by acts in any
order, together with what was done and answered on the way, the latest first. A
theorem about every `Run` holds at every point between two steps and for every
interleaving: a run cut short is a run.

The turns of the broker's loop are such acts (`Broker.Turn.hub`). A step that asks the
platform for more than it has ends the loop, so it is no part of a run. The name of a
connection is made fresh for it.
-/

namespace EventRelay

/-- One step of the event loop, of a client, or of the clock. -/
inductive Act where
  | register (g : Registration)
  /-- Ends the session's connection: the given client's, or whichever there is. -/
  | release (id : SessionId) (client : Option ClientId)
  | dispatch (m : Message)
  | reap
  /-- The loop ends and disconnects everybody. -/
  | stop
  | read (c : Client)
  /-- A client gives up its reading end. -/
  | leave (c : Client)
  | wait (span : Nat)
  | sweep
  /-- Somebody asks for a session. -/
  | look (id : SessionId)
  /-- Somebody asks whether a session may be claimed. -/
  | ask (id : SessionId) (claimant : Metadata)

/-- What the one who acted is told. -/
inductive Outcome where
  | admitted (c : Client)
  | refused (o : Obstacle)
  | reading (r : Reading)
  | found (s : Option Session)
  | claimable (granted : Bool)
  | done

/-- The answer to a registration. -/
def Outcome.ofAnswer : Except Obstacle Client → Outcome
  | .ok c => .admitted c
  | .error o => .refused o

/-- The step ran into a limit of the platform. -/
def Outcome.isFault : Outcome → Bool
  | .refused (.fault _) => true
  | _ => false

theorem Outcome.ok_of_admitted {answer : Except Obstacle Client} {c : Client}
    (h : ofAnswer answer = .admitted c) : answer = .ok c := by
  cases answer with
  | error o => cases h
  | ok c' => rw [Outcome.admitted.inj h]

theorem Outcome.ne_fault {answer : Except Obstacle Client} (h : (ofAnswer answer).isFault = false)
    (f : Fault) : answer ≠ .error (.fault f) := by
  rintro rfl
  cases h

/-- An act and its outcome. -/
structure Occurrence where
  act : Act
  outcome : Outcome

/-- Takes one step. -/
def Hub.act (h : Hub) : Act → Hub × Outcome
  | .register g => ((h.register g).1, .ofAnswer (h.register g).2)
  | .release id client => (h.release id client, .done)
  | .dispatch m => (h.dispatch m, .done)
  | .reap => (h.reap, .done)
  | .stop => (h.closeAll, .done)
  | .read c => ((h.read c).1, .reading (h.read c).2)
  | .leave c => (h.leave c, .done)
  | .wait span => ({ h with registry := h.registry.setClock (h.now + span) }, .done)
  | .sweep => ({ h with registry := h.registry.sweep.1 }, .done)
  | .look id => ({ h with registry := (h.registry.lookup id).1 }, .found (h.registry.lookup id).2)
  | .ask id claimant => (h, .claimable (h.registry.claimable id claimant))

/-- The handle that an occurrence gave out. -/
def Occurrence.handle? (o : Occurrence) : Option Client :=
  match o.outcome with
  | .admitted c => some c
  | _ => none

/-- The handles given out so far. -/
def handles (past : List Occurrence) : List Client := past.filterMap Occurrence.handle?

theorem mem_handles_cons {past : List Occurrence} {a : Act} {o : Outcome} {c : Client} :
    c ∈ handles (⟨a, o⟩ :: past) ↔ o = .admitted c ∨ c ∈ handles past := by
  cases o <;> simp [handles, Occurrence.handle?, List.filterMap_cons, eq_comm]

/-- The name that an act brings for a new connection was not given out before. -/
def Act.newcomer (past : List Occurrence) : Act → Prop
  | .register g => ∀ c ∈ handles past, c.id ≠ g.client
  | _ => True

instance (past : List Occurrence) (a : Act) : Decidable (a.newcomer past) := by
  cases a <;> unfold Act.newcomer <;> infer_instance

/-- What can be reached from a new broker over an empty registry. -/
inductive Run : List Occurrence → Hub → Prop
  | start {config : Broker.Config} {registry : Registry} {b : Broker}
      (hempty : registry.sessions = []) (hstart : Broker.start config registry = .ok b) :
      Run [] b.hub
  | step {past : List Occurrence} {h : Hub} (hrun : Run past h) (a : Act)
      (hnew : a.newcomer past) (hfault : (h.act a).2.isFault = false) :
      Run (⟨a, (h.act a).2⟩ :: past) (h.act a).1

/-! ## Playing a list of acts -/

/-- Takes the given steps, if all of them may be taken. -/
def play : List Act → List Occurrence × Hub → Option (List Occurrence × Hub)
  | [], s => some s
  | a :: acts, (past, h) =>
    if a.newcomer past ∧ (h.act a).2.isFault = false then
      play acts (⟨a, (h.act a).2⟩ :: past, (h.act a).1)
    else none

/-- What is played is a run. -/
theorem Run.play {acts : List Act} {s s' : List Occurrence × Hub} (hrun : Run s.1 s.2)
    (hplay : EventRelay.play acts s = some s') : Run s'.1 s'.2 := by
  induction acts generalizing s with
  | nil =>
      obtain rfl := Option.some.inj hplay
      exact hrun
  | cons a acts ih =>
      obtain ⟨past, h⟩ := s
      rw [EventRelay.play] at hplay
      split at hplay
      · next hok => exact ih (hrun.step a hok.1 hok.2) hplay
      · cases hplay

/-- The hub of a new broker. -/
def Hub.opened (config : Broker.Config) (sessions : Registry.Config) : Hub :=
  ({ config, registry := { config := sessions } } : Hub).note
    (.brokerStarted config.queueCapacity config.intakeCapacity config.heartbeat config.patience)

theorem Run.opened {config : Broker.Config} (hfits : config.intakeCapacity ≤ Limits.maxQueue)
    (sessions : Registry.Config) : Run [] (Hub.opened config sessions) :=
  @Run.start config { config := sessions } _ rfl (if_neg (Nat.not_lt.mpr hfits))

/-- A connection whose client and greeting have the number `n`. -/
def Registration.numbered (n : Nat) (candidate : Option SessionId) (lastEventId : Option EventId)
    (draws : List Draw) : Registration :=
  { candidate, lastEventId, metadata := {}, draws, client := ⟨n⟩, greeting := EventId.ofSerial n }

end EventRelay
