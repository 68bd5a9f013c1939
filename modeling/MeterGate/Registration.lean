import MeterGate.Filter.Basic

set_option autoImplicit false

/-! # Registering a meter

A meter that is registered with a filter goes through its three operations: first its id is mapped,
then the filter is asked about the mapped id, and then, if the meter's type has histogram settings,
these are configured, whatever the verdict was. Last the verdict is reported. -/

namespace MeterGate

/-- What became of a meter that was registered. -/
structure Registration where
  id : MeterId
  reply : Reply
  config : Option DistributionConfig
deriving DecidableEq, Repr

namespace Registration

/-- Only a denied meter is replaced by one that records nothing. -/
def isEnabled (r : Registration) : Bool := r.reply ≠ .deny

/-- Equality of outcomes: ids as series, settings as numbers. -/
def same (a b : Registration) : Bool :=
  a.id == b.id && a.reply == b.reply
    && DistributionConfig.sameSetting DistributionConfig.same a.config b.config

end Registration

namespace Filter

variable {σ : Type}

/-- The settings of a meter, if its type has any. -/
def configureIfUsed (f : Filter σ) (id : MeterId) (initial : DistributionConfig) :
    Eval σ (Option DistributionConfig) :=
  if id.type.usesDistributionConfig then some <$> f.configure id initial else pure none

/-- Register a meter. -/
def register (f : Filter σ) (id : MeterId) (initial : DistributionConfig) :
    Eval σ Registration := do
  let id ← f.map id
  let reply ← f.accept id
  let config ← f.configureIfUsed id initial
  Eval.log (.ofVerdict id reply)
  pure ⟨id, reply, config⟩

end Filter

end MeterGate
