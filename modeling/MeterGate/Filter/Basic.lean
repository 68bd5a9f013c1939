import MeterGate.Evaluation

set_option autoImplicit false

/-! # Filters

A filter takes part in the making of a meter in three ways: it may map the id (`map`), say
whether the meter should be made (`accept`), and adjust the histogram settings (`configure`). An
operation that a filter does not care about passes through. -/

namespace MeterGate

/-- The three operations of a filter whose memory is part of `σ`. -/
structure Filter (σ : Type) where
  map : MeterId → Eval σ MeterId := fun id => pure id
  accept : MeterId → Eval σ Reply := fun _ => pure .neutral
  configure : MeterId → DistributionConfig → Eval σ DistributionConfig :=
    fun _ config => pure config

namespace Filter

variable {σ : Type}

/-- The filter that lets everything pass. -/
def passThrough : Filter σ := {}

instance : Inhabited (Filter σ) := ⟨passThrough⟩

/-! ## Filters from closures -/

/-- A filter that only maps ids. -/
def ofMap (f : MeterId → Except Panic MeterId) : Filter σ where
  map id := Eval.ofClosure (f id)

/-- A filter that only decides on admission. -/
def ofAccept (f : MeterId → Except Panic Reply) : Filter σ where
  accept id := Eval.ofClosure (f id)

/-- A filter that only adjusts histogram settings. -/
def ofConfigure (f : MeterId → DistributionConfig → Except Panic DistributionConfig) :
    Filter σ where
  configure id config := Eval.ofClosure (f id config)

/-! ## A filter under watch -/

/-- The same filter, each of whose operations is taken down under a label before it runs. -/
def watched (label : String) (inner : Filter σ) : Filter σ where
  map id := do
    Eval.watch (.map label id)
    inner.map id
  accept id := do
    Eval.watch (.accept label id)
    inner.accept id
  configure id config := do
    Eval.watch (.configure label id config)
    inner.configure id config

end Filter

end MeterGate
