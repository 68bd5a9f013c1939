import MeterGate.Proofs.Course
import MeterGate.Config.Build

set_option autoImplicit false

/-! # Filters that never panic

Only closures panic. A computation returns if each of its steps does (`Eval.Returns`), so a filter
returns, whatever the world, if no closure in it panics (`StockFilter.returns_toFilter`). The
closures in the filters of rules never do (`Rule.returns_buildAll`). -/

namespace MeterGate

namespace Eval

variable {σ α β : Type}

/-! ## Computations that return -/

/-- A computation gives a result, whatever the world. -/
def Returns (x : Eval σ α) : Prop := ∀ w, ∃ a, x.outcome w = .ok a

namespace Returns

theorem pure (a : α) : Returns (pure a : Eval σ α) := fun _ => ⟨a, rfl⟩

theorem log (e : Event) : Returns (log e : Eval σ Unit) := fun _ => ⟨(), rfl⟩

theorem watch (c : Call) : Returns (watch c : Eval σ Unit) := fun _ => ⟨(), rfl⟩

theorem read (c : Cell σ α) : Returns (read c) := fun _ => ⟨_, rfl⟩

theorem write [DecidableEq α] (c : Cell σ α) (a : α) : Returns (write c a) := fun _ => ⟨(), rfl⟩

theorem ofClosure {answer : Except Panic α} (h : ∃ a, answer = .ok a) :
    Returns (ofClosure answer : Eval σ α) := by
  obtain ⟨a, rfl⟩ := h
  exact .pure a

theorem bind {x : Eval σ α} {f : α → Eval σ β} (hx : Returns x) (hf : ∀ a, Returns (f a)) :
    Returns (x >>= f) := by
  intro w
  obtain ⟨a, first⟩ := hx w
  obtain ⟨b, second⟩ := hf a (x.worldAfter w)
  refine ⟨b, ?_⟩
  rw [outcome_bind, first]
  exact second

end Returns

theorem Composes.returns : Composes (Returns : ∀ {α : Type}, Eval σ α → Prop) :=
  ⟨.pure, .log, .watch, .bind⟩

end Eval

/-! ## What holds of a limiter's admission -/

section

variable {σ : Type} {P : ∀ {α : Type}, Eval σ α → Prop} (composes : Eval.Composes P)
include composes

/-- What holds of looking at a record, changing it and reporting holds of the admission of a metric
    cap. -/
theorem MetricCap.accept_of {cell : Cell σ MetricCap.Record} (read : P (Eval.read cell))
    (write : ∀ record, P (Eval.write cell record)) (max : Nat) (id : MeterId) :
    P (MetricCap.accept cell max id) := by
  refine composes.bind read fun before => composes.bind (write _) fun _ => ?_
  split
  · exact composes.bind (composes.log _) fun _ => composes.pure _
  · exact composes.pure _

/-- It holds of the admission of a tag cap if it also holds of that of the overflow filter. -/
theorem TagCap.accept_of {cell : Cell σ TagCap.Record} (read : P (Eval.read cell))
    (write : ∀ record, P (Eval.write cell record)) (limit : TagCap.Limit) {overflow : Filter σ}
    {id : MeterId} (behind : P (overflow.accept id)) :
    P (TagCap.accept cell limit overflow id) := by
  unfold TagCap.accept
  split
  · exact composes.pure _
  · refine composes.bind read fun before => composes.bind (write _) fun _ => ?_
    split
    · split
      · exact composes.bind (composes.log _) fun _ => behind
      · exact behind
    · exact composes.pure _

end

/-! ## Filters that return -/

namespace Filter

variable {σ : Type}

/-- No operation of a filter ends in a panic. -/
structure Returns (f : Filter σ) : Prop where
  map : ∀ id, (f.map id).Returns
  accept : ∀ id, (f.accept id).Returns
  configure : ∀ id config, (f.configure id config).Returns

theorem Returns.passThrough : (passThrough : Filter σ).Returns :=
  ⟨fun _ => .pure _, fun _ => .pure _, fun _ _ => .pure _⟩

theorem Returns.watched {f : Filter σ} (h : f.Returns) (label : String) :
    (watched label f).Returns :=
  ⟨fun id => (Eval.Returns.watch _).bind fun _ => h.map id,
    fun id => (Eval.Returns.watch _).bind fun _ => h.accept id,
    fun id config => (Eval.Returns.watch _).bind fun _ => h.configure id config⟩

theorem Returns.metricCap (cell : Cell σ MetricCap.Record) (max : Nat) :
    (metricCap cell max).Returns :=
  ⟨fun _ => .pure _, MetricCap.accept_of .returns (.read cell) (.write cell) max,
    fun _ _ => .pure _⟩

theorem Returns.tagCap (cell : Cell σ TagCap.Record) (limit : TagCap.Limit) {overflow : Filter σ}
    (h : overflow.Returns) : (tagCap cell limit overflow).Returns := by
  refine ⟨fun _ => .pure _, fun id => ?_, fun id config => ?_⟩
  · exact TagCap.accept_of .returns (.read cell) (.write cell) limit (h.accept id)
  · refine (Eval.Returns.read cell).bind fun record => ?_
    split
    · exact h.configure id config
    · exact .pure _

theorem Returns.register {f : Filter σ} (h : f.Returns) (id : MeterId)
    (config : DistributionConfig) : (f.register id config).Returns :=
  register_of .returns h.map h.accept h.configure id config

end Filter

theorem Chain.returns {σ : Type} {chain : Chain σ} (h : ∀ f ∈ chain, f.Returns) :
    (Chain.toFilter chain).Returns where
  map := Chain.map_of .returns fun f hf => (h f hf).map
  accept _ := Chain.accept_of .returns fun f hf => (h f hf).accept _
  configure _ := Chain.configure_of .returns fun f hf => (h f hf).configure _

/-! ## Closures -/

/-- The values of a tag key are replaced if the closure has an answer to each. -/
theorem Tag.replaceValues_of_returns {key : String} {replacement : String → Except Panic String}
    (exceptions : List String) (calm : ∀ value, ∃ value', replacement value = .ok value')
    (tags : List Tag) : ∃ tags', Tag.replaceValues key replacement exceptions tags = .ok tags' := by
  induction tags with
  | nil => exact ⟨[], rfl⟩
  | cons t rest ih =>
      obtain ⟨rest', hrest⟩ := ih
      obtain ⟨value', hvalue⟩ := calm t.value
      obtain ⟨t', ht⟩ : ∃ t', t.replaceValue key replacement exceptions = .ok t' := by
        unfold Tag.replaceValue
        split
        · exact ⟨t, rfl⟩
        · exact ⟨_, congrArg (Except.map _) hvalue⟩
      exact ⟨t' :: rest', by rw [replaceValues, ht, hrest]; rfl⟩

namespace StockFilter

mutual

/-- No closure in a filter ever panics. -/
def NeverPanics : StockFilter → Prop
  | replaceTagValues _ replacement _ => ∀ value, ∃ value', replacement value = .ok value'
  | byPredicate predicate _ _ => ∀ id, ∃ holds, predicate id = .ok holds
  | mapClosure f => ∀ id, ∃ id', f id = .ok id'
  | acceptClosure f => ∀ id, ∃ reply, f id = .ok reply
  | configureClosure f => ∀ id config, ∃ config', f id config = .ok config'
  | tagCap _ _ overflow => overflow.NeverPanics
  | boxed inner => inner.NeverPanics
  | chain filters => NonePanics filters
  | watched _ inner => inner.NeverPanics
  | _ => True

/-- No closure in any of some filters ever panics. -/
def NonePanics : List StockFilter → Prop
  | [] => True
  | f :: rest => f.NeverPanics ∧ NonePanics rest

end

theorem nonePanics_iff (filters : List StockFilter) :
    NonePanics filters ↔ ∀ f ∈ filters, f.NeverPanics := by
  induction filters with
  | nil => simp [NonePanics]
  | cons f rest ih => rw [NonePanics, ih, List.forall_mem_cons]

theorem returns_toFilter {f : StockFilter} (calm : f.NeverPanics) : f.toFilter.Returns := by
  induction f using induction with
  | commonTags | renameTag | ignoreTags | byName | expectedBound =>
      exact ⟨fun _ => .pure _, fun _ => .pure _, fun _ _ => .pure _⟩
  | replaceTagValues key replacement exceptions =>
      refine ⟨fun id => .ofClosure ?_, fun _ => .pure _, fun _ _ => .pure _⟩
      obtain ⟨tags', replaced⟩ := Tag.replaceValues_of_returns exceptions calm id.tags
      exact ⟨_, congrArg (Except.map _) replaced⟩
  | mapClosure f => exact ⟨fun id => .ofClosure (calm id), fun _ => .pure _, fun _ _ => .pure _⟩
  | byPredicate predicate onMatch otherwise =>
      refine ⟨fun _ => .pure _, fun id => .ofClosure ?_, fun _ _ => .pure _⟩
      obtain ⟨holds, answered⟩ := calm id
      exact ⟨_, congrArg (Except.map _) answered⟩
  | acceptClosure f => exact ⟨fun _ => .pure _, fun id => .ofClosure (calm id), fun _ _ => .pure _⟩
  | configureClosure f =>
      exact ⟨fun _ => .pure _, fun _ => .pure _, fun id config => .ofClosure (calm id config)⟩
  | passThrough => exact .passThrough
  | metricCap place max => exact .metricCap _ max
  | tagCap place limit overflow ih => exact .tagCap _ limit (ih calm)
  | boxed inner ih => exact ih calm
  | chain filters ih =>
      rw [toFilter_chain]
      refine Chain.returns fun f' hf' => ?_
      obtain ⟨f, hf, rfl⟩ := List.mem_map.1 hf'
      exact ih f hf ((nonePanics_iff filters).1 calm f hf)
  | watched label inner ih => exact (ih calm).watched label

end StockFilter

/-! ## Filters of rules -/

namespace Rule

theorem neverPanics_build (rule : Rule) (s : Store) : (rule.build s).1.NeverPanics := by
  induction rule generalizing s with
  | replaceTagValues key replacement exceptions => exact fun _ => ⟨replacement, rfl⟩
  | accept | deny => exact fun _ => ⟨true, rfl⟩
  | maximumAllowableTags name key max overflow ih => exact ih s
  | maxExpected b =>
      show b.maxFilter.NeverPanics
      unfold ExpectedBound.maxFilter
      split <;> trivial
  | minExpected b =>
      show b.minFilter.NeverPanics
      unfold ExpectedBound.minFilter
      split <;> trivial
  | _ => trivial

theorem nonePanics_buildAll (rules : List Rule) (s : Store) :
    StockFilter.NonePanics (buildAll rules s).1 := by
  induction rules generalizing s with
  | nil => trivial
  | cons rule rest ih => exact ⟨neverPanics_build rule s, ih _⟩

theorem returns_buildAll (rules : List Rule) (s : Store) :
    (Chain.toFilter (StockFilter.toChain (buildAll rules s).1)).Returns :=
  StockFilter.returns_toFilter (f := .chain (buildAll rules s).1) (nonePanics_buildAll rules s)

end Rule

end MeterGate
