import MeterGate.Chain
import MeterGate.Request
import Mathlib.Order.Defs.Unbundled

set_option autoImplicit false

/-! # Runs of requests

A run is a list of requests put to one filter. `Filter.after` is the world that it leaves, and each
entry of the run's course is the response in the world left by the requests before it
(`Filter.getElem?_course`), so a fact about one response in a reachable world is a fact about every
entry of every course.

The second half says what computations do to the filters' memory. `Eval.Moves R x` says that `x`
leads along the relation `R` of memories, whether it gives a result or panics, and `Filter.Moves`
says it of the operations of a filter; for a preorder it is enough that each step does. A special
case is what computations leave alone: `Eval.Keeps g x` says that `x` does not change what `g`
reads. -/

namespace MeterGate

/-! ## The world after a run -/

namespace Filter

variable {σ : Type}

/-- The world after requests made one after another. -/
def after (f : Filter σ) (requests : List Request) (w : World σ) : World σ :=
  requests.foldl (fun w request => (f.respond request w).2) w

@[simp] theorem after_nil (f : Filter σ) (w : World σ) : f.after [] w = w := rfl

theorem after_cons (f : Filter σ) (request : Request) (rest : List Request) (w : World σ) :
    f.after (request :: rest) w = f.after rest (f.respond request w).2 := rfl

theorem after_append (f : Filter σ) (xs ys : List Request) (w : World σ) :
    f.after (xs ++ ys) w = f.after ys (f.after xs w) := List.foldl_append

theorem after_concat (f : Filter σ) (requests : List Request) (request : Request) (w : World σ) :
    f.after (requests ++ [request]) w = (f.respond request (f.after requests w)).2 := by
  rw [after_append]
  rfl

theorem getElem?_course (f : Filter σ) (requests : List Request) (w : World σ) (i : Nat) :
    (f.course requests w)[i]?
      = requests[i]?.map fun request => f.respond request (f.after (requests.take i) w) := by
  induction requests generalizing i w with
  | nil => simp [course]
  | cons request rest ih =>
      cases i with
      | zero => rfl
      | succ i =>
          simp only [course, List.getElem?_cons_succ, ih, List.take_succ_cons, after_cons]

theorem course_concat (f : Filter σ) (requests : List Request) (request : Request) (w : World σ) :
    f.course (requests ++ [request]) w
      = f.course requests w ++ [f.respond request (f.after requests w)] := by
  induction requests generalizing w with
  | nil => rfl
  | cons first rest ih => simp only [List.cons_append, course, ih, after_cons]

/-- Two filters have the same course if they respond alike wherever the first one leads. -/
theorem course_map_congr {α : Type} {ask : α → Request} {f g : Filter σ} {w : World σ}
    (alike : ∀ (past : List α) (call : α), g.respond (ask call) (f.after (past.map ask) w)
      = f.respond (ask call) (f.after (past.map ask) w)) (calls : List α) :
    g.course (calls.map ask) w = f.course (calls.map ask) w := by
  induction calls generalizing w with
  | nil => rfl
  | cons call rest ih =>
      have first : g.respond (ask call) w = f.respond (ask call) w := alike [] call
      have later := ih fun past => alike (call :: past)
      simp only [List.map_cons, course, first, later]

/-! ## Asking for one operation -/

theorem respond_accept (f : Filter σ) (id : MeterId) (w : World σ) :
    f.respond (.accept id) w = match f.accept id w with
      | .ok reply w => (.reply reply, w)
      | .error p w => (.panic p, w) := by
  simp only [respond, ask, Eval.bind_apply, Eval.pure_apply]
  cases f.accept id w <;> rfl

theorem respond_configure (f : Filter σ) (id : MeterId) (config : DistributionConfig)
    (w : World σ) :
    f.respond (.configure id config) w = match f.configure id config w with
      | .ok config w => (.config config, w)
      | .error p w => (.panic p, w) := by
  simp only [respond, ask, Eval.bind_apply, Eval.pure_apply]
  cases f.configure id config w <;> rfl

theorem register_of_ok {f : Filter σ} {id mapped : MeterId} {initial : DistributionConfig}
    {reply : Reply} {config : Option DistributionConfig} {w w₁ w₂ w₃ : World σ}
    (map : f.map id w = .ok mapped w₁) (accept : f.accept mapped w₁ = .ok reply w₂)
    (configure : f.configureIfUsed mapped initial w₂ = .ok config w₃) :
    f.register id initial w = .ok ⟨mapped, reply, config⟩ (w₃.log (.ofVerdict mapped reply)) := by
  simp only [register, Eval.bind_apply, map, accept, configure, Eval.log_apply, Eval.pure_apply]

theorem respond_register (f : Filter σ) (id : MeterId) (config : DistributionConfig)
    (w : World σ) :
    f.respond (.register id config) w = match f.register id config w with
      | .ok r w => (.registration r, w)
      | .error p w => (.panic p, w) := by
  simp only [respond, ask, Eval.bind_apply, Eval.pure_apply]
  cases f.register id config w <;> rfl

end Filter

/-! ## Writing a cell and reporting -/

namespace World

variable {σ α : Type} [DecidableEq α]

/-- The world after a write to a cell. -/
def put (c : Cell σ α) (a : α) (w : World σ) : World σ :=
  if c.get w.state = a then w else { w with state := c.put a w.state }

theorem put_of_get {c : Cell σ α} {a : α} {w : World σ} (h : c.get w.state = a) : w.put c a = w :=
  if_pos h

theorem moves_put {R : σ → σ → Prop} [Std.Refl R] {c : Cell σ α} {a : α} {w : World σ}
    (step : R w.state (c.put a w.state)) : R w.state (w.put c a).state := by
  unfold put
  split
  · exact refl_of R _
  · exact step

@[simp] theorem get_put (c : Cell σ α) (a : α) (w : World σ) : c.get (w.put c a).state = a := by
  unfold put
  split
  · next h => exact h
  · exact c.get_put a w.state

@[simp] theorem events_put (c : Cell σ α) (a : α) (w : World σ) :
    (w.put c a).events = w.events := by unfold put; split <;> rfl

@[simp] theorem calls_put (c : Cell σ α) (a : α) (w : World σ) : (w.put c a).calls = w.calls := by
  unfold put; split <;> rfl

/-- The world after events were reported. -/
def logAll (es : List Event) (w : World σ) : World σ := { w with events := w.events ++ es }

omit [DecidableEq α] in
@[simp] theorem state_log (e : Event) (w : World σ) : (w.log e).state = w.state := rfl

omit [DecidableEq α] in
@[simp] theorem events_log (e : Event) (w : World σ) : (w.log e).events = w.events ++ [e] := rfl

omit [DecidableEq α] in
theorem log_eq_logAll (e : Event) (w : World σ) : w.log e = w.logAll [e] := rfl

omit [DecidableEq α] in
theorem logAll_nil (w : World σ) : w.logAll [] = w := by simp [logAll]

end World

namespace Eval

variable {σ α β γ : Type}

theorem write_apply [DecidableEq α] (c : Cell σ α) (a : α) (w : World σ) :
    write c a w = .ok () (w.put c a) := rfl

/-! ## Where a computation leads -/

/-- The world that a computation leaves, by a result or by a panic. -/
def worldAfter (x : Eval σ α) (w : World σ) : World σ :=
  match x w with
  | .ok _ w | .error _ w => w

/-- From any memory a computation leads along a relation, whether it gives a result or panics. -/
def Moves (R : σ → σ → Prop) (x : Eval σ α) : Prop := ∀ w, R w.state (x.worldAfter w).state

theorem worldAfter_of_ok {x : Eval σ α} {w w' : World σ} {a : α} (ran : x w = .ok a w') :
    x.worldAfter w = w' := by
  unfold worldAfter
  rw [ran]

theorem worldAfter_bind (x : Eval σ α) (f : α → Eval σ β) (w : World σ) :
    (x >>= f).worldAfter w = match x w with
      | .ok a w => (f a).worldAfter w
      | .error _ w => w := by
  unfold worldAfter
  rw [bind_apply]
  cases x w <;> rfl

/-- What a computation gives: its result, or the panic that ended it. -/
def outcome (x : Eval σ α) (w : World σ) : Except Panic α :=
  match x w with
  | .ok a _ => .ok a
  | .error p _ => .error p

theorem outcome_of_ok {x : Eval σ α} {w w' : World σ} {a : α} (ran : x w = .ok a w') :
    x.outcome w = .ok a := by
  unfold outcome
  rw [ran]

theorem ok_of_outcome {x : Eval σ α} {w : World σ} {a : α} (h : x.outcome w = .ok a) :
    ∃ w', x w = .ok a w' := by
  unfold outcome at h
  cases ran : x w with
  | ok b w' =>
      rw [ran] at h
      cases h
      exact ⟨w', rfl⟩
  | error p w' =>
      rw [ran] at h
      cases h

/-- A computation that gave a result did so in its first step, and then in the rest. -/
theorem ok_of_bind_ok {x : Eval σ α} {f : α → Eval σ β} {w w'' : World σ} {b : β}
    (ran : (x >>= f) w = .ok b w'') : ∃ a w', x w = .ok a w' ∧ f a w' = .ok b w'' := by
  rw [bind_apply] at ran
  cases first : x w with
  | ok a w' =>
      rw [first] at ran
      exact ⟨a, w', rfl, ran⟩
  | error p w' =>
      rw [first] at ran
      cases ran

theorem outcome_bind (x : Eval σ α) (f : α → Eval σ β) (w : World σ) :
    (x >>= f).outcome w = match x.outcome w with
      | .ok a => (f a).outcome (x.worldAfter w)
      | .error p => .error p := by
  unfold outcome worldAfter
  rw [bind_apply]
  cases x w <;> rfl

theorem worldAfter_bind_outcome (x : Eval σ α) (f : α → Eval σ β) (w : World σ) :
    (x >>= f).worldAfter w = match x.outcome w with
      | .ok a => (f a).worldAfter (x.worldAfter w)
      | .error _ => x.worldAfter w := by
  rw [worldAfter_bind]
  unfold outcome worldAfter
  cases x w <;> rfl

namespace Moves

variable {R : σ → σ → Prop}

/-- The world of a result is one to which the computation leads. -/
theorem of_ok {x : Eval σ α} (h : Moves R x) {w w' : World σ} {a : α} (ran : x w = .ok a w') :
    R w.state w'.state := by
  have led := h w
  unfold worldAfter at led
  rw [ran] at led
  exact led

section Refl

variable [Std.Refl R]

theorem pure (a : α) : Moves R (pure a : Eval σ α) := fun _ => refl_of R _

theorem log (e : Event) : Moves R (log e : Eval σ Unit) := fun _ => refl_of R _

theorem watch (c : Call) : Moves R (watch c : Eval σ Unit) := fun _ => refl_of R _

theorem read (c : Cell σ α) : Moves R (read c) := fun _ => refl_of R _

theorem ofClosure (answer : Except Panic α) : Moves R (ofClosure answer : Eval σ α) := by
  cases answer <;> exact fun _ => refl_of R _

end Refl

/-- One computation after another leads along the relation if each of them does. -/
theorem bind [IsTrans σ R] {x : Eval σ α} {f : α → Eval σ β} (hx : Moves R x)
    (hf : ∀ a, Moves R (f a)) : Moves R (x >>= f) := by
  intro w
  have first := hx w
  rw [Eval.worldAfter_bind]
  unfold Eval.worldAfter at first
  -- after a panic nothing comes any more
  cases ran : x w with
  | ok a w' =>
      rw [ran] at first
      exact trans_of R first (hf a w')
  | error p w' =>
      rw [ran] at first
      exact first

theorem update [DecidableEq α] [IsPreorder σ R] {c : Cell σ α} {f : α → α} {k : α → Eval σ β}
    (step : ∀ s, R s (c.put (f (c.get s)) s)) (hk : ∀ a, Moves R (k a)) :
    Moves R (do
      let before ← Eval.read c
      Eval.write c (f before)
      k before) := by
  intro w
  have led : R w.state (w.put c (f (c.get w.state))).state := World.moves_put (step w.state)
  exact trans_of R led (hk (c.get w.state) (w.put c (f (c.get w.state))))

end Moves

/-! ## What holds of a computation if it holds of its steps -/

/-- A property of computations that passes from steps to what is made of them. -/
structure Composes (P : ∀ {α : Type}, Eval σ α → Prop) : Prop where
  pure : ∀ {α : Type} (a : α), P (pure a : Eval σ α)
  log : ∀ e, P (log e : Eval σ Unit)
  watch : ∀ c, P (watch c : Eval σ Unit)
  bind : ∀ {α β : Type} {x : Eval σ α} {f : α → Eval σ β}, P x → (∀ a, P (f a)) → P (x >>= f)

theorem Composes.moves (R : σ → σ → Prop) [IsPreorder σ R] : Composes (Moves R) :=
  ⟨.pure, .log, .watch, .bind⟩

/-! ## What a computation leaves alone -/

/-- What `g` reads from the memory is the same before and after a computation. -/
def Keeps (g : σ → γ) (x : Eval σ α) : Prop := ∀ w, g (x.worldAfter w).state = g w.state

end Eval

/-- Two memories from which `g` reads the same. -/
def SameReading {σ γ : Type} (g : σ → γ) (s t : σ) : Prop := g t = g s

instance {σ γ : Type} (g : σ → γ) : IsPreorder σ (SameReading g) where
  refl _ := rfl
  trans _ _ _ h k := Eq.trans k h

namespace Eval

variable {σ α β γ : Type}

namespace Keeps

variable {g : σ → γ}

/-- To keep what is read is to lead to memories of the same reading. -/
theorem of_moves {x : Eval σ α} (h : Moves (SameReading g) x) : Keeps g x := h

/-- What is kept is the same in the world of a result. -/
theorem of_ok {x : Eval σ α} (h : Keeps g x) {w w' : World σ} {a : α} (ran : x w = .ok a w') :
    g w'.state = g w.state := Moves.of_ok (show Moves (SameReading g) x from h) ran

theorem pure (a : α) : Keeps g (pure a : Eval σ α) := of_moves (.pure a)

theorem log (e : Event) : Keeps g (log e : Eval σ Unit) := of_moves (.log e)

theorem read (c : Cell σ α) : Keeps g (read c) := of_moves (.read c)

theorem bind {x : Eval σ α} {f : α → Eval σ β} (hx : Keeps g x) (hf : ∀ a, Keeps g (f a)) :
    Keeps g (x >>= f) := of_moves (Moves.bind hx hf)

theorem worldAfter_bind {x : Eval σ α} {f : α → Eval σ β} (hf : ∀ a, Keeps g (f a)) (w : World σ) :
    g ((x >>= f).worldAfter w).state = g (x.worldAfter w).state := by
  rw [Eval.worldAfter_bind]
  unfold Eval.worldAfter
  -- after a panic nothing comes any more
  cases x w with
  | ok a w => exact hf a w
  | error p w => rfl

end Keeps

end Eval

/-! ## Filters -/

namespace Filter

variable {σ γ : Type}

/-- The operations of a filter lead along a relation of the memory. -/
structure Moves (R : σ → σ → Prop) (f : Filter σ) : Prop where
  map : ∀ id, Eval.Moves R (f.map id)
  accept : ∀ id, Eval.Moves R (f.accept id)
  configure : ∀ id config, Eval.Moves R (f.configure id config)

/-- What `g` reads from the memory is out of the filter's reach. -/
structure Keeps (g : σ → γ) (f : Filter σ) : Prop where
  map : ∀ id, Eval.Keeps g (f.map id)
  accept : ∀ id, Eval.Keeps g (f.accept id)
  configure : ∀ id config, Eval.Keeps g (f.configure id config)

theorem Keeps.of_moves {g : σ → γ} {f : Filter σ} (h : f.Moves (SameReading g)) : f.Keeps g :=
  ⟨h.map, h.accept, h.configure⟩

theorem respond_register_outcome (f : Filter σ) (id : MeterId) (config : DistributionConfig)
    (w : World σ) :
    f.respond (.register id config) w =
      (match (f.register id config).outcome w with
        | .ok r => .registration r
        | .error p => .panic p,
      (f.register id config).worldAfter w) := by
  rw [respond_register]
  unfold Eval.outcome Eval.worldAfter
  cases f.register id config w <;> rfl

/-- What holds of the operations of a filter holds of a registration, which does nothing besides. -/
theorem register_of {P : ∀ {α : Type}, Eval σ α → Prop} (composes : Eval.Composes P) {f : Filter σ}
    (map : ∀ id, P (f.map id)) (accept : ∀ id, P (f.accept id))
    (configure : ∀ id config, P (f.configure id config)) (id : MeterId)
    (config : DistributionConfig) : P (f.register id config) := by
  refine composes.bind (map id) fun id => composes.bind (accept id) fun reply => ?_
  refine composes.bind ?_ fun config => composes.bind (composes.log _) fun _ => composes.pure _
  unfold configureIfUsed
  split
  · exact composes.bind (configure id config) fun _ => composes.pure _
  · exact composes.pure _

/-- What configuration keeps is in the end of a registration as mapping and asking left it. -/
theorem keeps_register {g : σ → γ} {f : Filter σ}
    (configure : ∀ id config, (f.configure id config).Keeps g) (id : MeterId)
    (initial : DistributionConfig) (w : World σ) :
    g ((f.register id initial).worldAfter w).state
      = g ((f.map id >>= f.accept).worldAfter w).state := by
  have settings : ∀ mapped reply, Eval.Keeps g (do
      let config ← f.configureIfUsed mapped initial
      Eval.log (.ofVerdict mapped reply)
      pure (⟨mapped, reply, config⟩ : Registration)) := by
    intro mapped reply
    refine .bind ?_ fun config => (Eval.Keeps.log _).bind fun _ => .pure _
    unfold configureIfUsed
    split
    · exact (configure mapped initial).bind fun _ => .pure _
    · exact .pure _
  unfold register
  rw [Eval.worldAfter_bind, Eval.worldAfter_bind]
  -- after a panic in the mapping pass nothing comes any more
  cases f.map id w with
  | ok mapped w₁ => exact Eval.Keeps.worldAfter_bind (settings mapped) w₁
  | error p w₁ => rfl

theorem Moves.ask {R : σ → σ → Prop} [IsPreorder σ R] {f : Filter σ} (h : f.Moves R)
    (request : Request) : Eval.Moves R (f.ask request) := by
  cases request with
  | register id config =>
      exact (register_of (.moves R) h.map h.accept h.configure id config).bind fun _ => .pure _
  | map id => exact (h.map id).bind fun _ => .pure _
  | accept id => exact (h.accept id).bind fun _ => .pure _
  | configure id config => exact (h.configure id config).bind fun _ => .pure _

theorem respond_snd (f : Filter σ) (request : Request) (w : World σ) :
    (f.respond request w).2 = (f.ask request).worldAfter w := by
  unfold respond Eval.worldAfter
  cases f.ask request w <;> rfl

theorem respond_fst (f : Filter σ) (request : Request) (w : World σ) :
    (f.respond request w).1 = match (f.ask request).outcome w with
      | .ok response => response
      | .error p => .panic p := by
  unfold respond Eval.outcome
  cases f.ask request w <;> rfl

theorem Moves.respond {R : σ → σ → Prop} [IsPreorder σ R] {f : Filter σ} (h : f.Moves R)
    (request : Request) (w : World σ) : R w.state (f.respond request w).2.state := by
  rw [respond_snd]
  exact h.ask request w

theorem Keeps.respond {g : σ → γ} {f : Filter σ} (h : f.Keeps g) (request : Request)
    (w : World σ) : g (f.respond request w).2.state = g w.state := by
  have moves : f.Moves (SameReading g) := ⟨h.map, h.accept, h.configure⟩
  exact moves.respond request w

end Filter

/-! ## Chains -/

namespace Chain

variable {σ : Type} {P : ∀ {α : Type}, Eval σ α → Prop} (composes : Eval.Composes P)
  {chain : Chain σ}
include composes

/-- What holds of mapping with each filter holds of the mapping pass. -/
theorem map_of (h : ∀ f ∈ chain, ∀ id, P (f.map id)) (id : MeterId) : P (map chain id) := by
  induction chain generalizing id with
  | nil => exact composes.pure id
  | cons f rest ih =>
      obtain ⟨hf, hrest⟩ := List.forall_mem_cons.1 h
      exact composes.bind (hf id) (ih hrest)

theorem accept_of {id : MeterId} (h : ∀ f ∈ chain, P (f.accept id)) : P (accept chain id) := by
  induction chain with
  | nil => exact composes.pure Reply.neutral
  | cons f rest ih =>
      obtain ⟨hf, hrest⟩ := List.forall_mem_cons.1 h
      refine composes.bind hf fun reply => ?_
      cases reply with
      | accept | deny => exact composes.pure _
      | neutral => exact ih hrest

theorem configure_of {id : MeterId} (h : ∀ f ∈ chain, ∀ config, P (f.configure id config))
    (config : DistributionConfig) : P (configure chain id config) := by
  induction chain generalizing config with
  | nil => exact composes.pure config
  | cons f rest ih =>
      obtain ⟨hf, hrest⟩ := List.forall_mem_cons.1 h
      exact composes.bind (hf config) (ih hrest)

end Chain

end MeterGate
