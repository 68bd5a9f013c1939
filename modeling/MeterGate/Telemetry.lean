import MeterGate.StockFilter

set_option autoImplicit false

/-! # Telemetry

Events go to the one subscriber of a process. A host installs its own; for a host that has none
there is a default one with a level. Setting up telemetry never replaces a subscriber that is in
place, so a host's subscriber goes on getting the events. -/

namespace MeterGate

/-- Who gets the events of a process. -/
inductive Subscriber where
  | host
  | default (level : String)
deriving DecidableEq, Repr

namespace Telemetry

/-- The subscriber after telemetry was set up with a level. -/
def init (level : String) (installed : Option Subscriber) : Option Subscriber :=
  installed.or (some (.default level))

/-- The events that the host's subscriber gets. -/
def heardByHost (installed : Option Subscriber) (events : List Event) : List Event :=
  if installed = some .host then events else []

/-- What the host hears of a meter that an empty chain registers after telemetry was set up. -/
def eventsOfRegistration (level : String) (installed : Option Subscriber) (id : MeterId) :
    List Event :=
  match Chain.register ([] : Chain Store) id .none (.fresh {}) with
  | .ok _ w | .error _ w => heardByHost (init level installed) w.events

end Telemetry

end MeterGate
