import MeterGate.Registration

set_option autoImplicit false

/-! # Chains of filters

A chain is a list of filters, and has the three operations of a filter as passes over the list. The
*mapping* pass hands the id from filter to filter. The *admission* pass asks each filter about the
id until one has an opinion. The *configuration* pass hands the histogram settings from filter to
filter and always goes to the end. So a chain is a filter itself (`Chain.toFilter`), and chains
nest. -/

namespace MeterGate

/-- Filters in the order in which they are consulted. -/
abbrev Chain (σ : Type) := List (Filter σ)

namespace Chain

variable {σ : Type}

/-- The mapping pass. -/
def map : Chain σ → MeterId → Eval σ MeterId
  | [], id => pure id
  | f :: rest, id => do
      let id ← f.map id
      map rest id

/-- The admission pass: the first opinion ends it. -/
def accept : Chain σ → MeterId → Eval σ Reply
  | [], _ => pure .neutral
  | f :: rest, id => do
      let reply ← f.accept id
      match reply with
      | .neutral => accept rest id
      | decisive => pure decisive

/-- The configuration pass. -/
def configure : Chain σ → MeterId → DistributionConfig → Eval σ DistributionConfig
  | [], _, config => pure config
  | f :: rest, id, config => do
      let config ← f.configure id config
      configure rest id config

/-- A chain as one filter. -/
def toFilter (chain : Chain σ) : Filter σ where
  map := map chain
  accept := accept chain
  configure := configure chain

/-- Register a meter with a chain. -/
def register (chain : Chain σ) (id : MeterId) (initial : DistributionConfig) :
    Eval σ Registration :=
  (toFilter chain).register id initial

/-- The short form in which a chain of some length is shown. -/
def summary (length : Nat) : String :=
  "FilterChain \x7b filters: " ++ toString length ++ " \x7d"

/-! ## Appending chains -/

theorem map_append (xs ys : Chain σ) (id : MeterId) :
    map (xs ++ ys) id = map xs id >>= map ys := by
  induction xs generalizing id with
  | nil => rfl
  | cons f rest ih => simp only [List.cons_append, map, ih, bind_assoc]

theorem configure_append (xs ys : Chain σ) (id : MeterId) (config : DistributionConfig) :
    configure (xs ++ ys) id config = configure xs id config >>= configure ys id := by
  induction xs generalizing config with
  | nil => rfl
  | cons f rest ih => simp only [List.cons_append, configure, ih, bind_assoc]

/-- The admission pass over two chains asks the second one if the first has no opinion. -/
theorem accept_append (xs ys : Chain σ) (id : MeterId) :
    accept (xs ++ ys) id = accept xs id >>= fun reply =>
      match reply with
      | .neutral => accept ys id
      | decisive => pure decisive := by
  induction xs with
  | nil => rfl
  | cons f rest ih =>
      simp only [List.cons_append, accept, ih, bind_assoc]
      congr 1
      funext reply
      cases reply <;> rfl

end Chain

end MeterGate
