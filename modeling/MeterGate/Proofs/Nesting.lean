import MeterGate.Request
import MeterGate.StockFilter

set_option autoImplicit false

/-! # Nested chains and flat ones

A chain is its filters one behind the other (`Filter.andThen`), and this does not depend on how they
are grouped (`Chain.toFilter_append`). So a filter that is put together of boxes and chains, to any
depth, is the flat chain of its leaves, whatever these do (`StockFilter.readWith_eq_leaves`): a leaf
may remember, report and panic as it likes, and the same leaf may stand in several places. What is
asked of a nested chain is therefore asked of its leaves as a flat chain would ask it
(`StockFilter.course_leavesOfAll`). -/

namespace MeterGate

/-! ## One filter behind another -/

namespace Filter

variable {σ : Type}

/-- Two filters, one behind the other: the second one is asked about admission only if the first one
    has no opinion. -/
def andThen (f g : Filter σ) : Filter σ where
  map id := f.map id >>= g.map
  accept id := f.accept id >>= fun reply =>
    match reply with
    | .neutral => g.accept id
    | decisive => pure decisive
  configure id config := f.configure id config >>= g.configure id

@[simp] theorem andThen_passThrough (f : Filter σ) : f.andThen passThrough = f := by
  obtain ⟨map, accept, configure⟩ := f
  simp only [andThen, passThrough, mk.injEq]
  refine ⟨by simp, ?_, by simp⟩
  funext id
  -- with nothing behind it, even the lack of an opinion is the answer
  calc _ = accept id >>= pure := by congr 1; funext reply; cases reply <;> rfl
    _ = accept id := bind_pure _

end Filter

namespace Chain

variable {σ : Type}

theorem toFilter_cons (f : Filter σ) (rest : Chain σ) :
    toFilter (f :: rest) = f.andThen (toFilter rest) := rfl

theorem toFilter_singleton (f : Filter σ) : toFilter [f] = f := f.andThen_passThrough

/-- Two chains in one are the one behind the other. -/
theorem toFilter_append (xs ys : Chain σ) :
    toFilter (xs ++ ys) = (toFilter xs).andThen (toFilter ys) := by
  simp only [toFilter, Filter.andThen, Filter.mk.injEq]
  exact ⟨funext fun id => map_append xs ys id, funext fun id => accept_append xs ys id,
    funext fun id => funext fun config => configure_append xs ys id config⟩

end Chain

/-! ## Leaves -/

namespace StockFilter

variable {σ : Type}

mutual

/-- The operations of a filter whose leaves are read as `reading` says. -/
def readWith (reading : StockFilter → Filter σ) : StockFilter → Filter σ
  | boxed inner => readWith reading inner
  | chain filters => Chain.toFilter (readAllWith reading filters)
  | leaf => reading leaf

/-- The operations of a list of filters whose leaves are read as `reading` says. -/
def readAllWith (reading : StockFilter → Filter σ) : List StockFilter → Chain σ
  | [] => []
  | f :: rest => readWith reading f :: readAllWith reading rest

end

/-- The operations that filters have come from those of their leaves. -/
theorem readWith_toFilter (f : StockFilter) : f.readWith toFilter = f.toFilter := by
  induction f using induction with
  | boxed inner ih => exact ih
  | chain filters ih =>
      rw [readWith, toFilter]
      congr 1
      induction filters with
      | nil => rfl
      | cons f rest ihrest =>
          obtain ⟨hf, hrest⟩ := List.forall_mem_cons.1 ih
          rw [readAllWith, toChain, hf, ihrest hrest]
  | _ => rfl

theorem readAllWith_toFilter (filters : List StockFilter) :
    readAllWith toFilter filters = toChain filters := by
  induction filters with
  | nil => rfl
  | cons f rest ih => rw [readAllWith, toChain, readWith_toFilter, ih]

section

variable (reading : StockFilter → Filter σ)

theorem readAllWith_eq_leaves {filters : List StockFilter}
    (each : ∀ f ∈ filters, f.readWith reading = Chain.toFilter (f.leaves.map reading)) :
    Chain.toFilter (readAllWith reading filters)
      = Chain.toFilter ((leavesOfAll filters).map reading) := by
  induction filters with
  | nil => rfl
  | cons f rest ih =>
      obtain ⟨hf, hrest⟩ := List.forall_mem_cons.1 each
      rw [readAllWith, leavesOfAll, List.map_append, Chain.toFilter_cons, Chain.toFilter_append, hf,
        ih hrest]

theorem readWith_eq_leaves (f : StockFilter) :
    f.readWith reading = Chain.toFilter (f.leaves.map reading) := by
  induction f using induction with
  | boxed inner ih => exact ih
  | chain filters ih => exact readAllWith_eq_leaves reading ih
  | _ => exact (Chain.toFilter_singleton _).symm

/-- A chain, however it is nested, is the flat chain of its leaves. -/
theorem toFilter_readAllWith (filters : List StockFilter) :
    Chain.toFilter (readAllWith reading filters)
      = Chain.toFilter ((leavesOfAll filters).map reading) :=
  readAllWith_eq_leaves reading fun f _ => readWith_eq_leaves reading f

end

/-- **Nesting is transparent.** A chain of filters that may be boxes and chains, nested to any depth
    and empty ones among them, is put to any requests, and so is the flat chain of the same leaves
    from left to right, a shared one as often as it occurs. At every request both give the same
    response and leave the same memory of every limiter and the same events. This is so for
    whatever the leaves do, and if each leaf is put under watch, the same operations are asked of
    the leaves, of the same ids and settings and in the same order. -/
theorem course_leavesOfAll (filters : List StockFilter) :
    (∀ (requests : List Request) (w : World Store),
      (Chain.toFilter (toChain filters)).course requests w
        = (Chain.toFilter (toChain (leavesOfAll filters))).course requests w) ∧
    ∀ {σ : Type} (reading : StockFilter → Filter σ) (label : StockFilter → String)
      (requests : List Request) (w : World σ),
      let underWatch (leaf : StockFilter) : Filter σ := (reading leaf).watched (label leaf)
      (Chain.toFilter (readAllWith reading filters)).course requests w
        = (Chain.toFilter ((leavesOfAll filters).map reading)).course requests w ∧
      (Chain.toFilter (readAllWith underWatch filters)).course requests w
        = (Chain.toFilter ((leavesOfAll filters).map underWatch)).course requests w := by
  refine ⟨fun requests w => ?_, fun reading label requests w => ⟨?_, ?_⟩⟩
  · rw [← readAllWith_toFilter, toFilter_readAllWith, toChain_eq_map]
  · rw [toFilter_readAllWith]
  · rw [toFilter_readAllWith]

end StockFilter

end MeterGate
