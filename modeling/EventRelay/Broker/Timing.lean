import EventRelay.Broker.Loop

/-!
# The broker and the clock

Three things happen by themselves as time passes: heartbeats are handed in, the
registry is swept, and clients that do not read are disconnected. Each waits for
its `Alarm`. `sleep` lets time pass smoothly, so that each happens at its own
moment; `jump` moves the clock at once, and what became due on the way then
happens late.
-/

namespace EventRelay.Broker

/-- Sets the clock. -/
def setClock (b : Broker) (now : Nat) : Broker := b.withRegistry (b.registry.setClock now)

/-! ## Alarms -/

/-- When an alarm goes off. That for stalled clients is set only while the loop has
nothing else to do. -/
def alarmAt (b : Broker) : Alarm → Option Nat
  | .sweep => b.registry.nextSweep
  | .heartbeat => if b.isRunning then b.heartbeat.due else none
  | .stall => if b.isRunning && b.workload == 0 then b.hub.nextDeadline else none

/-- The next moment at which something happens by itself. -/
def nextDue (b : Broker) : Option Nat := (b.alarms.filterMap b.alarmAt).min?

/-- The alarms that go off at the present time, with the moments they were set for:
the earliest first, and of those for one moment the one that was set first. -/
def dueAlarms (b : Broker) : List (Nat × Alarm) :=
  let set := b.alarms.filterMap fun a => (b.alarmAt a).map fun t => (t, a)
  (set.filter fun entry => entry.1 ≤ b.now).mergeSort fun a b => a.1 ≤ b.1

/-! ## What happens by itself -/

def runSweeper (b : Broker) : Broker := b.withRegistry b.registry.runSweeper

/-- Hands in a heartbeat. -/
def runHeartbeat (b : Broker) : Broker :=
  let b := { b with heartbeat := b.heartbeat.fire b.now }
  let (b, id) := b.freshEventId
  if b.intakeFull then b.note .heartbeatSkipped
  else { b with intake := b.intake ++ [{ event := Event.heartbeat id, scope := .live }] }

/-- Does what an alarm is for. The one for stalled clients wakes the loop. -/
def ring (b : Broker) : Alarm → Broker
  | .sweep => b.runSweeper.setAlarm .sweep
  | .heartbeat => b.runHeartbeat.setAlarm .heartbeat
  | .stall => b.settle

/-- Does what is due at the present time. -/
def runDue (b : Broker) : Broker := ((b.dueAlarms.map (·.2)).foldl ring b).settle

/-! ## The passing of time -/

/-- Lets time pass smoothly. -/
def sleep (b : Broker) (span : Nat) : Broker :=
  Clock.glide nextDue (fun t b => (b.setClock t).runDue) (b.now + span) b.now b.settle

/-- Moves the clock at once. Requests that wait are handled before anything that
became due on the way. -/
def jump (b : Broker) (span : Nat) : Broker := (b.setClock (b.now + span)).drain.runDue

end EventRelay.Broker
