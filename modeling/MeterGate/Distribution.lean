import MeterGate.Binary64.Basic

set_option autoImplicit false

/-! # Histogram settings

Timers and distribution summaries carry a `DistributionConfig`. Every setting of it is optional: an
unset one is inherited from the config below. Filters only lay partial configs over the config they
are handed, `x.merge y`, where a setting of `x` wins and the others come from `y`. -/

namespace MeterGate

/-! ## Lengths of time -/

/-- A length of time: whole seconds and less than a second of nanoseconds. -/
structure Duration where
  secs : UInt64
  nanos : Nat
  nanos_lt : nanos < 1000000000
deriving DecidableEq, Repr

namespace Duration

/-- A length of time in milliseconds. -/
def ofMillis (millis : UInt64) : Duration :=
  ⟨millis / 1000, millis.toNat % 1000 * 1000000, by omega⟩

/-- The length in nanoseconds. -/
def totalNanos (d : Duration) : Nat := d.secs.toNat * 1000000000 + d.nanos

theorem totalNanos_ofMillis (millis : UInt64) :
    (ofMillis millis).totalNanos = millis.toNat * 1000000 := by
  simp only [ofMillis, totalNanos, UInt64.toNat_div]
  show millis.toNat / 1000 * 1000000000 + millis.toNat % 1000 * 1000000 = _
  omega

end Duration

/-! ## Partial configs -/

/-- Histogram settings, each set or left to the config below. Bounds of timers are in
    nanoseconds. -/
structure DistributionConfig where
  percentileHistogram : Option Bool := none
  percentiles : Option (List Binary64) := none
  percentilePrecision : Option UInt32 := none
  objectives : Option (List Binary64) := none
  minimum : Option Binary64 := none
  maximum : Option Binary64 := none
  expiry : Option Duration := none
  bufferLength : Option UInt32 := none
deriving DecidableEq, Repr

namespace DistributionConfig

/-- The config with nothing set. -/
def none : DistributionConfig := {}

instance : Inhabited DistributionConfig := ⟨none⟩

/-- Lay a config over another: what is set above wins, the rest is inherited. -/
def merge (above below : DistributionConfig) : DistributionConfig where
  percentileHistogram := above.percentileHistogram.or below.percentileHistogram
  percentiles := above.percentiles.or below.percentiles
  percentilePrecision := above.percentilePrecision.or below.percentilePrecision
  objectives := above.objectives.or below.objectives
  minimum := above.minimum.or below.minimum
  maximum := above.maximum.or below.maximum
  expiry := above.expiry.or below.expiry
  bufferLength := above.bufferLength.or below.bufferLength

@[simp] theorem none_merge (c : DistributionConfig) : none.merge c = c := by
  simp [none, merge]

@[simp] theorem merge_none (c : DistributionConfig) : c.merge none = c := by
  simp [none, merge]

/-- Numeric equality of lists, entry by entry. -/
def sameNumbers : List Binary64 → List Binary64 → Bool
  | [], [] => true
  | x :: xs, y :: ys => x == y && sameNumbers xs ys
  | _, _ => false

/-- Equality of optional settings under an equality of their values. -/
def sameSetting {α : Type} (same : α → α → Bool) : Option α → Option α → Bool
  | some a, some b => same a b
  | .none, .none => true
  | _, _ => false

/-- Equality of settings, numbers being compared as numbers: a config with a NaN differs from
    itself, and the two zeros are equal. -/
def same (a b : DistributionConfig) : Bool :=
  a.percentileHistogram == b.percentileHistogram
    && sameSetting sameNumbers a.percentiles b.percentiles
    && a.percentilePrecision == b.percentilePrecision
    && sameSetting sameNumbers a.objectives b.objectives
    && sameSetting Binary64.eq a.minimum b.minimum
    && sameSetting Binary64.eq a.maximum b.maximum
    && a.expiry == b.expiry
    && a.bufferLength == b.bufferLength

/-- Configs laid one under the other, from the top one down. -/
def mergeDown (top : DistributionConfig) (below : List DistributionConfig) : DistributionConfig :=
  below.foldl merge top

/-- Configs laid one over the other, from the bottom one up. -/
def mergeUp (bottom : DistributionConfig) (above : List DistributionConfig) : DistributionConfig :=
  above.foldl (fun below c => c.merge below) bottom

theorem mergeUp_append (bottom : DistributionConfig) (xs ys : List DistributionConfig) :
    bottom.mergeUp (xs ++ ys) = (bottom.mergeUp xs).mergeUp ys := List.foldl_append

end DistributionConfig

end MeterGate
