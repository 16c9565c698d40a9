import EventRelay.Broker.Basic

/-!
# The broker's loop

One `turn` of the loop does the most urgent thing there is: handle a release,
else a registration, else a message, else disconnect the clients whose time is
up. The loop takes a `spell` of turns before it lets others run, who then may
have room for what waits in the lobby. `settle` goes on until nothing is left to
do at the present time.

A request past a limit of the platform ends the loop for good: what waits is
discarded, clients read nothing more, and sessions stay as they are.
-/

namespace EventRelay.Broker

/-- Requests that wait in the queues. -/
def workload (b : Broker) : Nat := b.releases.length + b.registrations.length + b.intake.length

/-- The broker without its queues; waiting registrations are refused. -/
def discardQueues (b : Broker) : Broker :=
  let refused := (b.registrations ++ b.lobby).map fun g => (g.1, .error .shutDown)
  { b with
    releases := []
    registrations := []
    lobby := []
    intake := []
    answers := refused ++ b.answers }

/-- The loop ends by itself. -/
def fail (b : Broker) (f : Fault) : Broker := { b.discardQueues with phase := .failed f }

/-! ## Turns -/

/-- The loop ends by itself in the middle of a registration. -/
def failAnswering (b : Broker) (ticket : Ticket) (f : Fault) : Broker :=
  { b with answers := (ticket, .error .shutDown) :: b.answers }.fail f

/-- Admits a connection, or fails trying. A session is held before its return is counted,
and so it stays held if that fails. -/
def accept (b : Broker) (ticket : Ticket) (g : Registration) : Broker :=
  match b.hub.overcounted? g with
  | some id => (b.withRegistry (b.registry.hold id)).failAnswering ticket .countOverflow
  | none =>
    match b.hub.register g with
    | (hub, .ok client) => { b with hub, answers := (ticket, .ok client) :: b.answers }
    | (hub, .error (.refusal r)) => { b with hub, answers := (ticket, .error r) :: b.answers }
    | (hub, .error (.fault f)) => { b with hub }.failAnswering ticket f

/-- Handles the most urgent request, if one waits. -/
def work (b : Broker) : Broker :=
  match b.releases with
  | r :: releases => { b with releases, hub := b.hub.release r.session r.client }
  | [] =>
    match b.registrations with
    | (ticket, g) :: registrations => { b with registrations }.accept ticket g
    | [] =>
      match b.intake with
      | m :: intake => { b with intake, hub := b.hub.dispatch m }
      | [] => b

/-- There are clients whose time is up. -/
def isReapDue (b : Broker) : Bool := b.hub.nextDeadline.any (· ≤ b.now)

/-- The loop has nothing to do at the present time. -/
def isIdle (b : Broker) : Bool :=
  !b.isRunning || (b.workload == 0 && !b.isReapDue && !b.hub.deadlineOverflows)

/-- One turn of a loop that is not idle. It starts by working out when to wake for a
stalled client, which fails if the clock cannot name that moment, and ends by setting
the alarm for it. -/
def turn (b : Broker) : Broker :=
  if b.hub.deadlineOverflows then b.fail .deadlineOverflow
  else if b.workload = 0 then { b with hub := b.hub.reap }.setAlarm .stall
  else b.work.setAlarm .stall

/-- Turns of the loop, at most `n`, until it is idle. -/
def turns : Nat → Broker → Broker
  | 0, b => b
  | n + 1, b => if b.isIdle then b else turns n b.turn

/-! ## Spells -/

/-- The most turns that the loop takes before it lets others run. -/
def spellLength : Nat := 128

/-- The loop runs until it is idle or has to let others run. -/
def spell (b : Broker) : Broker := turns spellLength b

/-- Registrations from the lobby join their queue as far as there is room. -/
def letIn (b : Broker) : Broker :=
  let room := queueLength - b.registrations.length
  { b with registrations := b.registrations ++ b.lobby.take room, lobby := b.lobby.drop room }

/-- Spells of the loop, at most `n`, until `enough` or nothing is left to do. -/
def spells (enough : Broker → Bool) : Nat → Broker → Broker
  | 0, b => b
  | n + 1, b =>
    if enough b || (b.isIdle && b.lobby.isEmpty) then b else spells enough n b.spell.letIn

/-- More spells than the loop needs: one for each request, one for stalled clients,
and one for a loop that fails. -/
def spellBound (b : Broker) : Nat := b.workload + b.lobby.length + 2

/-- Lets the loop run until nothing is left to do at the present time. -/
def settle (b : Broker) : Broker := spells (fun _ => false) b.spellBound b

/-- Lets the loop run until registrations have their answers. -/
def await (b : Broker) (tickets : List Ticket) : Broker :=
  spells (fun b => tickets.all fun t => (b.answer? t).isSome) b.spellBound b

/-- Lets the loop handle the requests that wait, for one spell at most. It does not
look at stalled clients, for no alarm has gone off. -/
def drain (b : Broker) : Broker := turns (min b.workload spellLength) b

/-! ## The end -/

/-- Tells the loop to stop. It looks at that before it handles anything else, but after
it has worked out when to wake for a stalled client, as in every `turn`. -/
def shutLoop (b : Broker) : Broker :=
  if b.hub.deadlineOverflows then b.fail .deadlineOverflow
  else { b.discardQueues with phase := .stopped, hub := b.hub.closeAll }

/-- Waits for the broker's tasks to end. -/
def joinTasks (b : Broker) : Broker :=
  let b := if b.phase = .stopped then b else b.note .brokerTaskFailed
  let b := if b.heartbeat.due.isNone then b.note .brokerTaskFailed else b
  { b.note .brokerStopped with awaited := true }

/-- Stops the loop if it runs, and waits for it to end. Stopping again does nothing. -/
def stop (b : Broker) : Broker :=
  if b.awaited then b
  else if b.isRunning then b.shutLoop.joinTasks
  else b.joinTasks

end EventRelay.Broker
