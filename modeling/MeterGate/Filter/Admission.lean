import MeterGate.Filter.Basic

set_option autoImplicit false

/-! # Filters that decide on admission

They answer by a predicate on the id or by how its name begins, and leave ids and histogram settings
alone. -/

namespace MeterGate.Filter

variable {σ : Type}

/-- One reply where a predicate holds, another where it does not. -/
def byPredicate (predicate : MeterId → Except Panic Bool) (onMatch otherwise : Reply) : Filter σ :=
  ofAccept fun id => (predicate id).map fun holds => if holds then onMatch else otherwise

/-- One reply for names that begin as given, another for the rest. -/
def byName (start : String) (onMatch otherwise : Reply) : Filter σ where
  accept id := pure (if id.nameStartsWith start then onMatch else otherwise)

end MeterGate.Filter
