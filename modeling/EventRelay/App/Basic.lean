import EventRelay.Broker.Forward
import EventRelay.Broker.Timing
import EventRelay.Settings.Basic

/-!
# The application

The settings with the broker they start, and the publisher that request handlers
hand their notifications to.
-/

namespace EventRelay

/-- A running relay. -/
structure App where
  settings : Settings
  broker : Broker
  deriving Repr

namespace App

/-- Starts the sessions, with their background sweep, and the broker, at the given time. -/
def start (settings : Settings) (now : Nat) : Except Fault App := do
  let config := settings.registry
  let registry := (Registry.start config now).note (.sessionsConfigured config.bufferCapacity
    (Duration.seconds config.ttl) (Duration.seconds config.sweepInterval) config.strictBinding)
  let broker ← Broker.start settings.broker registry
  .ok { settings, broker }

/-- The publisher whose notifications reach a broker. -/
def publisher (renderer : Option Renderer) : Publisher Broker :=
  ({} : Publisher Broker).withHandler (Broker.forward renderer)

def note (a : App) (n : Notice) : App := { a with broker := a.broker.note n }

/-- Closes every live client, and stops the broker and the background sweep. -/
def shutdown (a : App) : App :=
  let broker := a.broker.stop
  { a with broker := broker.withRegistry broker.registry.stop }.note .subsystemStopped

end App

end EventRelay
