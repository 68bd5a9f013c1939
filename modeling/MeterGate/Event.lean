import MeterGate.Meter
import MeterGate.Reply

set_option autoImplicit false

/-! # Log events

What filters and chains report, one constructor per occasion. The level, the text and the named
fields of an event are read off its constructor. -/

namespace MeterGate

/-- How important an event is. -/
inductive Level where
  | trace
  | debug
  | info
  | warn
deriving DecidableEq, Repr

namespace Level

/-- The name of a level. -/
def label : Level → String
  | .trace => "trace"
  | .debug => "debug"
  | .info => "info"
  | .warn => "warn"

end Level

/-- The value of a field of an event. -/
inductive FieldValue where
  | text (s : String)
  | count (n : Nat)
deriving DecidableEq, Repr

/-- An occasion that is reported. -/
inductive Event where
  /-- A chain let a meter through, with this reply. -/
  | admitted (id : MeterId) (reply : Reply)
  /-- A chain denied a meter. -/
  | denied (id : MeterId)
  /-- A metric cap met its first series too many. -/
  | metricCapTripped (meter : String) (max : Nat)
  /-- A metric cap that had tripped before denied another registration. -/
  | metricCapDenied (meter : String) (max : Nat)
  /-- A tag cap met its first value too many. -/
  | tagCapTripped (meter key : String) (max : Nat)
  /-- A chain was built from a configuration. -/
  | chainBuilt (filters : Nat)
deriving DecidableEq, Repr

namespace Event

/-- The event of a chain's own verdict on a meter. -/
def ofVerdict (id : MeterId) (reply : Reply) : Event :=
  if reply = .deny then .denied id else .admitted id reply

/-- How important an event is. -/
def level : Event → Level
  | .admitted .. => .trace
  | .denied .. => .debug
  | .metricCapTripped .. => .warn
  | .metricCapDenied .. => .debug
  | .tagCapTripped .. => .warn
  | .chainBuilt .. => .info

/-- The text of an event. -/
def message : Event → String
  | .admitted .. => "Meter admitted by filter chain"
  | .denied .. => "Meter denied by filter chain"
  | .metricCapTripped .. => "Maximum allowable metrics exceeded, denying all further registrations"
  | .metricCapDenied .. => "Denied by metric cap"
  | .tagCapTripped .. =>
      "Maximum allowable tag values exceeded, delegating to overflow filter"
  | .chainBuilt .. => "Built meter filter chain from config"

/-- The named fields of an event. -/
def fields : Event → List (String × FieldValue)
  | .admitted id reply =>
      [("meter", .text id.name), ("meter_type", .text id.type.label), ("reply", .text reply.label),
       ("tags", .count id.tags.length)]
  | .denied id =>
      [("meter", .text id.name), ("meter_type", .text id.type.label),
       ("reply", .text Reply.deny.label)]
  | .metricCapTripped meter max => [("meter", .text meter), ("max", .count max)]
  | .metricCapDenied meter max => [("meter", .text meter), ("max", .count max)]
  | .tagCapTripped meter key max =>
      [("meter", .text meter), ("tag_key", .text key), ("max_values", .count max)]
  | .chainBuilt filters => [("filters", .count filters)]

/-- A verdict is reported at debug level exactly if it is a denial. -/
theorem level_ofVerdict (id : MeterId) (reply : Reply) :
    (ofVerdict id reply).level = if reply = .deny then .debug else .trace := by
  unfold ofVerdict
  split <;> rfl

end Event

end MeterGate
