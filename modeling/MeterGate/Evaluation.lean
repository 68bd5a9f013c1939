import MeterGate.Distribution
import MeterGate.Event

set_option autoImplicit false

/-! # Evaluation

Filters keep what they have observed, report events, and may run closures of the caller that panic.
All three are effects of `Eval σ`, where `σ` is whatever the filters at hand remember. A panic stops
the evaluation but undoes nothing: the world that it leaves is that of the moment it was raised. -/

namespace MeterGate

/-- What a closure says when it gives up. -/
structure Panic where
  message : String
deriving DecidableEq, Repr

/-- One operation of a filter that was under watch, with what it was applied to. -/
inductive Call where
  | map (label : String) (id : MeterId)
  | accept (label : String) (id : MeterId)
  | configure (label : String) (id : MeterId) (config : DistributionConfig)
deriving DecidableEq, Repr

namespace Call

/-- The label of the filter under watch and the operation asked of it. -/
def text : Call → String
  | .map label _ => label ++ ".map"
  | .accept label _ => label ++ ".accept"
  | .configure label _ _ => label ++ ".configure"

end Call

/-- What filters remember, the events reported so far and the operations watched so far, both in
    order. -/
structure World (σ : Type) where
  state : σ
  events : List Event := []
  calls : List Call := []

namespace World

variable {σ : Type}

/-- The same memory with nothing reported yet. -/
def fresh (state : σ) : World σ := { state := state }

/-- The world after an event was reported. -/
def log (e : Event) (w : World σ) : World σ := { w with events := w.events ++ [e] }

/-- The world after an operation was taken down. -/
def watch (c : Call) (w : World σ) : World σ := { w with calls := w.calls ++ [c] }

end World

/-- A computation over the filters' memory that reports events and may panic. -/
abbrev Eval (σ α : Type) := EStateM Panic (World σ) α

/-- A place for an `α` within a memory `σ`: what is put there is found there. -/
structure Cell (σ α : Type) where
  get : σ → α
  put : α → σ → σ
  get_put : ∀ a s, get (put a s) = a

namespace Eval

variable {σ α β : Type}

/-- Report an event. -/
def log (e : Event) : Eval σ Unit := modify (World.log e)

/-- Take down a watched operation. -/
def watch (c : Call) : Eval σ Unit := modify (World.watch c)

/-- The answer of a closure, or its panic. -/
def ofClosure (answer : Except Panic α) : Eval σ α :=
  match answer with
  | .ok a => pure a
  | .error p => throw p

/-- What a cell holds. -/
def read (c : Cell σ α) : Eval σ α := fun w => .ok (c.get w.state) w

/-- Change what a cell holds; a cell that already holds the new value is left alone. -/
def write [DecidableEq α] (c : Cell σ α) (a : α) : Eval σ Unit := fun w =>
  .ok () (if c.get w.state = a then w else { w with state := c.put a w.state })

@[simp] theorem pure_apply (a : α) (w : World σ) : (pure a : Eval σ α) w = .ok a w := rfl

theorem bind_apply (x : Eval σ α) (f : α → Eval σ β) (w : World σ) :
    (x >>= f) w = match x w with
      | .ok a w' => f a w'
      | .error p w' => .error p w' := by
  show EStateM.bind x f w = _
  unfold EStateM.bind
  cases x w <;> rfl

@[simp] theorem log_apply (e : Event) (w : World σ) :
    (log e) w = .ok () (w.log e) := rfl

@[simp] theorem watch_apply (c : Call) (w : World σ) :
    (watch c) w = .ok () (w.watch c) := rfl

@[simp] theorem read_apply (c : Cell σ α) (w : World σ) : read c w = .ok (c.get w.state) w := rfl

@[simp] theorem ofClosure_ok (a : α) : (ofClosure (.ok a) : Eval σ α) = pure a := rfl

@[simp] theorem ofClosure_error (p : Panic) (w : World σ) :
    (ofClosure (.error p) : Eval σ α) w = .error p w := rfl

end Eval

end MeterGate
