import MeterGate.Load
import MeterGate.Request
import MeterGate.Script.Form

set_option autoImplicit false

/-! # Sessions

A session builds chains and works with them step by step: it registers meters, asks for single
passes, adds filters, looks at limiters, loads configs. Every step gives an answer, and the events
and watched operations that happened during it. What filters remember goes on from step to step,
also over a panic. -/

namespace MeterGate.Script

/-! ## Steps and answers -/

/-- One step of a session; `on` names the chain or the filter that it is about. -/
inductive Step where
  | ask (on : String) (request : Request)
  | push (on : String) (filter : FilterForm)
  | newChain (on : String) (filters : List FilterForm)
  /-- Give a chain with the list of another one. -/
  | cloneChain (on source : String)
  | info (on : String)
  /-- Look at what a limiter has seen. -/
  | observe (on : String)
  /-- Compare the outcomes of the registrations of two steps. -/
  | same (a b : Nat)
  | loadText (on text : String)
  | loadConfig (on : String) (config : ChainConfig)

/-- The answer of a step. -/
inductive Answer where
  | response (r : Response)
  | length (n : Nat)
  | info (length : Nat)
  | metrics (record : MetricCap.Record) (max : Nat)
  | values (record : TagCap.Record)
  | same (b : Bool)
  | built (length : Nat)
  | fault (f : LoadFault)

/-- A step's answer with what happened during it. -/
structure Outcome where
  answer : Answer
  events : List Event := []
  calls : List Call := []

/-! ## Single steps -/

/-- What a name means when something is asked of it: a chain or a filter, a chain going first. -/
def target (s : Scope) (name : String) : Except ScriptFault (Filter Store) :=
  match lookUp name s.chains with
  | .ok filters => .ok (Chain.toFilter (StockFilter.toChain filters))
  | .error _ => do return (← lookUp name s.named).toFilter

/-- Ask a filter over the store of a scope. -/
def ask (s : Scope) (f : Filter Store) (request : Request) : Outcome × Scope :=
  let (response, w) := f.respond request (.fresh s.store)
  (⟨.response response, w.events, w.calls⟩, { s with store := w.state })

/-- Give a chain a list of filters. -/
def Scope.setChain (s : Scope) (name : String) (filters : List StockFilter) : Scope :=
  { s with chains := (name, filters) :: s.chains }

/-- Build a config as the chain of a name. If that fails the chain stays as it is. -/
def build (s : Scope) (on : String) (config : ChainConfig) : Outcome × Scope :=
  match config.build (.fresh s.store) with
  | .ok filters w =>
      (⟨.built filters.length, w.events, w.calls⟩,
        ({ s with store := w.state } : Scope).setChain on filters)
  | .error fault w => (⟨.fault (.config fault), w.events, w.calls⟩, s)

/-- The record of a limiter. -/
def observed? (s : Scope) : StockFilter → Option Answer
  | .metricCap place max => some (.metrics ((Store.metricCell place).get s.store) max)
  | .tagCap place _ _ => some (.values ((Store.valueCell place).get s.store))
  | _ => none

/-- The registration that a step made. -/
def registrationOf (outcomes : List Outcome) (step : Nat) : Except ScriptFault Registration :=
  match outcomes[step]? with
  | some ⟨.response (.registration r), _, _⟩ => .ok r
  | _ => .error (.unknownName (toString step))

/-- Carry out a step after others with the given outcomes. -/
def Step.run (outcomes : List Outcome) (s : Scope) : Step → Except ScriptFault (Outcome × Scope)
  | ask on request => do return Script.ask s (← target s on) request
  | push on form => do
      let filters ← lookUp on s.chains
      let (f, s) ← form.make s
      let filters := filters ++ [f]
      return (⟨.length filters.length, [], []⟩, s.setChain on filters)
  | newChain on forms => do
      let (filters, s) ← FilterForm.makeAll forms s
      return (⟨.length filters.length, [], []⟩, s.setChain on filters)
  | cloneChain on source => do
      let filters ← lookUp source s.chains
      return (⟨.length filters.length, [], []⟩, s.setChain on filters)
  | info on => do
      let filters ← lookUp on s.chains
      return (⟨.info filters.length, [], []⟩, s)
  | observe on => do
      match observed? s (← lookUp on s.named) with
      | some answer => return (⟨answer, [], []⟩, s)
      | none => throw (.unknownName on)
  | same a b => do
      let x ← registrationOf outcomes a
      let y ← registrationOf outcomes b
      return (⟨.same (x.same y), [], []⟩, s)
  | loadText on text =>
      match ChainConfig.ofText text with
      | .error fault => return (⟨.fault fault, [], []⟩, s)
      | .ok config => return build s on config
  | loadConfig on config => return build s on config

/-! ## Whole sessions -/

/-- Carry out steps in order, after others with the given outcomes. -/
def runFrom (outcomes : List Outcome) (s : Scope) : List Step → Except ScriptFault (List Outcome)
  | [] => .ok outcomes
  | step :: rest => do
      let (outcome, s) ← step.run outcomes s
      runFrom (outcomes ++ [outcome]) s rest

/-- The name of the chain that a session starts with. -/
def mainChain : String := "main"

/-- Build the first chain of a session and carry out its steps. -/
def run (filters : List FilterForm) (steps : List Step) : Except ScriptFault (List Outcome) := do
  let (filters, s) ← FilterForm.makeAll filters {}
  runFrom [] (s.setChain mainChain filters) steps

end MeterGate.Script
