import MeterGate.Filter.Basic

set_option autoImplicit false

/-! # Filters that bound histograms

They lay an expected minimum or maximum over the histogram settings of timers or of distribution
summaries whose name begins as given. Timer bounds are in nanoseconds: the double nearest to the
whole number of nanoseconds. -/

namespace MeterGate

namespace DistributionConfig

/-- The partial config that sets only the expected maximum. -/
def ofMaximum (x : Binary64) : DistributionConfig := { maximum := some x }

/-- The partial config that sets only the expected minimum. -/
def ofMinimum (x : Binary64) : DistributionConfig := { minimum := some x }

end DistributionConfig

namespace Duration

/-- A length of time as a bound of a timer. -/
def toBound (d : Duration) : Binary64 := .ofNat d.totalNanos

end Duration

namespace Filter

variable {σ : Type}

/-- Lay `bound` over the settings of meters of one type whose name begins as given. -/
def expectedBound (start : String) (type : MeterType) (bound : DistributionConfig) : Filter σ where
  configure id config :=
    pure (if id.type = type ∧ id.nameStartsWith start then bound.merge config else config)

end Filter

end MeterGate
