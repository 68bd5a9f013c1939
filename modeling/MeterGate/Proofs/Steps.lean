import MeterGate.Request
import MeterGate.StockFilter

set_option autoImplicit false

/-! # Mapping and configuration step by step

The mapping pass and the configuration pass of a filter are lists of steps: a filter under watch is
entered, or some work is done on what is handed on. The steps are taken from left to right, with
boxes and nested chains opened, up to the first panic (`Step.run`). What a filter does in the
configuration pass depends on the memory, as a tag cap has its overflow filter at work while it is
over its limit.

The steps are all that there is to the two passes (`StockFilter.map_eq_steps`,
`StockFilter.configure_eq_steps`), so a pass panics exactly at the first step that does
(`Step.run_eq_error_iff`). -/

namespace MeterGate

/-! ## Steps -/

/-- A step of a pass: a filter under watch is entered, or some work is done, which may panic. -/
inductive Step (α : Type) where
  | entered (label : String)
  | work (f : α → Except Panic α)

namespace Step

variable {α : Type} {call : String → α → Call}

/-- Take steps in order, up to the first panic: what is taken down on the way, and what comes of
    it. -/
def run (call : String → α → Call) : List (Step α) → α → List Call × Except Panic α
  | [], a => ([], .ok a)
  | .entered label :: rest, a => (call label a :: (run call rest a).1, (run call rest a).2)
  | .work f :: rest, a =>
      match f a with
      | .ok b => run call rest b
      | .error p => ([], .error p)

/-- Some step panics, those before it do not, and these calls are taken down before it. -/
def PanicsAfter (call : String → α → Call) (steps : List (Step α)) (a : α) (calls : List Call)
    (p : Panic) : Prop :=
  ∃ before f given after, steps = before ++ .work f :: after ∧
    run call before a = (calls, .ok given) ∧ f given = .error p

/-- Further steps go on with what comes of the first ones, unless these panic. -/
theorem run_append (xs ys : List (Step α)) (a : α) :
    run call (xs ++ ys) a = match run call xs a with
      | (calls, .ok b) => (calls ++ (run call ys b).1, (run call ys b).2)
      | (calls, .error p) => (calls, .error p) := by
  induction xs generalizing a with
  | nil => rfl
  | cons step rest ih =>
      cases step with
      | entered label =>
          simp only [List.cons_append, run, ih]
          rcases run call rest a with ⟨calls, b | p⟩ <;> rfl
      | work f =>
          simp only [List.cons_append, run]
          cases f a with
          | ok b => exact ih b
          | error p => rfl

/-- Steps panic exactly at the first one that does. -/
theorem run_eq_error_iff {steps : List (Step α)} {a : α} {calls : List Call} {p : Panic} :
    run call steps a = (calls, .error p) ↔ PanicsAfter call steps a calls p := by
  constructor
  · intro h
    induction steps generalizing a calls with
    | nil => cases h
    | cons step rest ih =>
        cases step with
        | entered label =>
            simp only [run, Prod.mk.injEq] at h
            obtain ⟨rfl, failed⟩ := h
            obtain ⟨before, f, given, after, rfl, ran, panics⟩ := ih (Prod.ext rfl failed)
            refine ⟨.entered label :: before, f, given, after, rfl, ?_, panics⟩
            rw [run, ran]
        | work g =>
            simp only [run] at h
            cases worked : g a with
            | ok b =>
                rw [worked] at h
                obtain ⟨before, f, given, after, rfl, ran, panics⟩ := ih h
                refine ⟨.work g :: before, f, given, after, rfl, ?_, panics⟩
                rw [run, worked]
                exact ran
            | error q =>
                rw [worked] at h
                cases h
                exact ⟨[], g, a, rest, rfl, rfl, worked⟩
  · rintro ⟨before, f, given, after, rfl, ran, panics⟩
    rw [run_append, ran]
    simp only [run, panics, List.append_nil]

/-- Steps as a computation: it takes down calls, and does nothing else but its work. -/
def toEval {σ : Type} (call : String → α → Call) (steps : List (Step α)) (a : α) : Eval σ α :=
  fun w => match run call steps a with
    | (calls, .ok b) => .ok b { w with calls := w.calls ++ calls }
    | (calls, .error p) => .error p { w with calls := w.calls ++ calls }

variable {σ : Type}

theorem toEval_nil (a : α) : (toEval call [] a : Eval σ α) = pure a := by
  funext w
  simp [toEval, run]

theorem toEval_work (f : α → Except Panic α) (a : α) :
    (toEval call [.work f] a : Eval σ α) = Eval.ofClosure (f a) := by
  funext w
  simp only [toEval, run]
  cases f a with
  | ok b => simp
  | error p =>
      simp only [List.append_nil]
      rfl

theorem toEval_append (xs ys : List (Step α)) (a : α) :
    (toEval call (xs ++ ys) a : Eval σ α) = toEval call xs a >>= toEval call ys := by
  funext w
  rw [Eval.bind_apply]
  simp only [toEval, run_append]
  rcases run call xs a with ⟨calls, p | b⟩
  · rfl
  · simp only
    rcases run call ys b with ⟨more, p | c⟩ <;> simp [List.append_assoc]

theorem toEval_entered (label : String) (steps : List (Step α)) (a : α) :
    (toEval call (.entered label :: steps) a : Eval σ α) =
      Eval.watch (call label a) >>= fun _ => toEval call steps a := by
  funext w
  rw [Eval.bind_apply]
  simp only [toEval, run, Eval.watch_apply, World.watch]
  rcases run call steps a with ⟨calls, p | b⟩ <;> simp

end Step

/-! ## The steps of the two passes -/

namespace StockFilter

mutual

/-- The steps of a filter in the mapping pass. -/
def mapSteps : StockFilter → List (Step MeterId)
  | commonTags tags => [.work fun id => .ok (id.addTags tags)]
  | renameTag start fromKey toKey => [.work fun id => .ok (id.renameTag start fromKey toKey)]
  | ignoreTags keys => [.work fun id => .ok (id.dropTags keys)]
  | replaceTagValues key replacement exceptions =>
      [.work (MeterId.replaceTagValues key replacement exceptions)]
  | mapClosure f => [.work f]
  | boxed inner => inner.mapSteps
  | chain filters => mapStepsOfAll filters
  | watched label inner => .entered label :: inner.mapSteps
  | _ => []

/-- The steps of a list of filters in the mapping pass. -/
def mapStepsOfAll : List StockFilter → List (Step MeterId)
  | [] => []
  | f :: rest => f.mapSteps ++ mapStepsOfAll rest

end

mutual

/-- The steps of a filter in the configuration pass for an id, while the memory is as given. -/
def configureSteps (s : Store) (id : MeterId) : StockFilter → List (Step DistributionConfig)
  | expectedBound start type bound =>
      [.work fun config =>
        .ok (if id.type = type ∧ id.nameStartsWith start then bound.merge config else config)]
  | configureClosure f => [.work (f id)]
  | tagCap place limit overflow =>
      if ((Store.valueCell place).get s).isOver limit.max then overflow.configureSteps s id else []
  | boxed inner => inner.configureSteps s id
  | chain filters => configureStepsOfAll s id filters
  | watched label inner => .entered label :: inner.configureSteps s id
  | _ => []

/-- The steps of a list of filters in the configuration pass. -/
def configureStepsOfAll (s : Store) (id : MeterId) :
    List StockFilter → List (Step DistributionConfig)
  | [] => []
  | f :: rest => f.configureSteps s id ++ configureStepsOfAll s id rest

end

theorem map_eq_steps (f : StockFilter) (id : MeterId) :
    f.toFilter.map id = Step.toEval .map f.mapSteps id := by
  induction f using induction generalizing id with
  | commonTags | renameTag | ignoreTags | replaceTagValues | mapClosure =>
      rw [mapSteps, Step.toEval_work]
      rfl
  | boxed inner ih =>
      rw [mapSteps]
      exact ih id
  | watched label inner ih =>
      rw [mapSteps, Step.toEval_entered, ← ih]
      rfl
  | chain filters ih =>
      rw [mapSteps]
      show Chain.map (toChain filters) id = _
      induction filters generalizing id with
      | nil => exact (Step.toEval_nil id).symm
      | cons f rest ih_rest =>
          obtain ⟨first, later⟩ := List.forall_mem_cons.1 ih
          rw [mapStepsOfAll, Step.toEval_append, toChain, Chain.map, first]
          exact bind_congr fun id => ih_rest later id
  | _ => exact (Step.toEval_nil id).symm

theorem configure_eq_steps (f : StockFilter) (id : MeterId) (config : DistributionConfig)
    (w : World Store) : f.toFilter.configure id config w =
      Step.toEval (.configure · id ·) (f.configureSteps w.state id) config w := by
  induction f using induction generalizing config w with
  | expectedBound | configureClosure =>
      rw [configureSteps, Step.toEval_work]
      rfl
  | boxed inner ih =>
      rw [configureSteps]
      exact ih config w
  | tagCap place limit overflow ih =>
      rw [configureSteps]
      show (if ((Store.valueCell place).get w.state).isOver limit.max
        then overflow.toFilter.configure id config else pure config) w = _
      split
      · exact ih config w
      · exact (congrFun (Step.toEval_nil config) w).symm
  | watched label inner ih =>
      rw [configureSteps, Step.toEval_entered, Eval.bind_apply]
      exact ih config (w.watch (.configure label id config))
  | chain filters ih =>
      rw [configureSteps]
      show Chain.configure (toChain filters) id config w = _
      induction filters generalizing config w with
      | nil => exact (congrFun (Step.toEval_nil config) w).symm
      | cons f rest ih_rest =>
          obtain ⟨first, later⟩ := List.forall_mem_cons.1 ih
          rw [configureStepsOfAll, Step.toEval_append, toChain, Chain.configure, Eval.bind_apply,
            Eval.bind_apply, first]
          -- the steps leave the memory as it is, so those after them are still the right ones
          simp only [Step.toEval]
          rcases Step.run (fun label config => Call.configure label id config)
            (f.configureSteps w.state id) config with ⟨calls, p | config⟩
          · rfl
          · exact ih_rest later config _
  | _ => exact (congrFun (Step.toEval_nil config) w).symm

end StockFilter

end MeterGate
