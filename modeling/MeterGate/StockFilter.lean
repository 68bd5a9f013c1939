import MeterGate.Chain
import MeterGate.Store
import MeterGate.Filter.Mapping
import MeterGate.Filter.Admission
import MeterGate.Filter.Bound

set_option autoImplicit false

/-! # Stock filters

The filters on offer, as data: the mapping, admission, limiting and bounding filters, closures of
the caller, and filters made of filters. `StockFilter.toFilter` gives each its operations over the
store of limiter records.

A limiter is its place in the store, so a filter that occurs in several chains is one filter with
one record. Boxes and nested chains add nothing of their own: `leaves` lists what is left without
them. -/

namespace MeterGate

/-- A filter on offer. -/
inductive StockFilter where
  /-- Append fixed tags. -/
  | commonTags (tags : List Tag)
  /-- Rename a tag key on names that begin as given. -/
  | renameTag (start fromKey toKey : String)
  /-- Drop tags by key. -/
  | ignoreTags (keys : List String)
  /-- Replace the values of a tag key, but for some exceptions. -/
  | replaceTagValues (key : String) (replacement : String → Except Panic String)
      (exceptions : List String)
  /-- Answer by a predicate on the id. -/
  | byPredicate (predicate : MeterId → Except Panic Bool) (onMatch otherwise : Reply)
  /-- Answer by how the name begins. -/
  | byName (start : String) (onMatch otherwise : Reply)
  /-- Limit the number of series. -/
  | metricCap (place max : Nat)
  /-- Limit the number of values of a tag. -/
  | tagCap (place : Nat) (limit : TagCap.Limit) (overflow : StockFilter)
  /-- Lay a bound over histogram settings. -/
  | expectedBound (start : String) (type : MeterType) (bound : DistributionConfig)
  /-- A closure that maps ids. -/
  | mapClosure (f : MeterId → Except Panic MeterId)
  /-- A closure that decides on admission. -/
  | acceptClosure (f : MeterId → Except Panic Reply)
  /-- A closure that adjusts histogram settings. -/
  | configureClosure (f : MeterId → DistributionConfig → Except Panic DistributionConfig)
  /-- Let everything pass. -/
  | passThrough
  /-- A filter in a box. -/
  | boxed (inner : StockFilter)
  /-- A chain as a filter. -/
  | chain (filters : List StockFilter)
  /-- A filter whose operations are taken down under a label. -/
  | watched (label : String) (inner : StockFilter)

namespace StockFilter

instance : Inhabited StockFilter := ⟨passThrough⟩

/-! ## Operations -/

mutual

/-- The operations of a filter. -/
def toFilter : StockFilter → Filter Store
  | commonTags tags => .commonTags tags
  | renameTag start fromKey toKey => .renameTag start fromKey toKey
  | ignoreTags keys => .ignoreTags keys
  | replaceTagValues key replacement exceptions => .replaceTagValues key replacement exceptions
  | byPredicate predicate onMatch otherwise => .byPredicate predicate onMatch otherwise
  | byName start onMatch otherwise => .byName start onMatch otherwise
  | metricCap place max => .metricCap (Store.metricCell place) max
  | tagCap place limit overflow => .tagCap (Store.valueCell place) limit overflow.toFilter
  | expectedBound start type bound => .expectedBound start type bound
  | mapClosure f => .ofMap f
  | acceptClosure f => .ofAccept f
  | configureClosure f => .ofConfigure f
  | passThrough => .passThrough
  | boxed inner => inner.toFilter
  | chain filters => Chain.toFilter (toChain filters)
  | watched label inner => .watched label inner.toFilter

/-- The operations of a list of filters, as a chain. -/
def toChain : List StockFilter → Chain Store
  | [] => []
  | f :: rest => f.toFilter :: toChain rest

end

theorem toChain_eq_map (fs : List StockFilter) : toChain fs = fs.map toFilter := by
  induction fs with
  | nil => rfl
  | cons f rest ih => rw [toChain, ih, List.map_cons]

@[simp] theorem toChain_append (fs gs : List StockFilter) :
    toChain (fs ++ gs) = toChain fs ++ toChain gs := by simp [toChain_eq_map]

theorem toFilter_chain (filters : List StockFilter) :
    (chain filters).toFilter = Chain.toFilter (filters.map toFilter) := by
  rw [toFilter, toChain_eq_map]

/-! ## Induction -/

/-- Induction over a filter: over the filter in a box, under watch or behind a tag cap, and over all
    filters of a chain. -/
@[elab_as_elim]
theorem induction {motive : StockFilter → Prop}
    (commonTags : ∀ tags, motive (.commonTags tags))
    (renameTag : ∀ start fromKey toKey, motive (.renameTag start fromKey toKey))
    (ignoreTags : ∀ keys, motive (.ignoreTags keys))
    (replaceTagValues : ∀ key replacement exceptions,
      motive (.replaceTagValues key replacement exceptions))
    (byPredicate : ∀ predicate onMatch otherwise,
      motive (.byPredicate predicate onMatch otherwise))
    (byName : ∀ start onMatch otherwise, motive (.byName start onMatch otherwise))
    (metricCap : ∀ place max, motive (.metricCap place max))
    (tagCap : ∀ place limit overflow, motive overflow → motive (.tagCap place limit overflow))
    (expectedBound : ∀ start type bound, motive (.expectedBound start type bound))
    (mapClosure : ∀ f, motive (.mapClosure f))
    (acceptClosure : ∀ f, motive (.acceptClosure f))
    (configureClosure : ∀ f, motive (.configureClosure f))
    (passThrough : motive .passThrough)
    (boxed : ∀ inner, motive inner → motive (.boxed inner))
    (chain : ∀ filters, (∀ f ∈ filters, motive f) → motive (.chain filters))
    (watched : ∀ label inner, motive inner → motive (.watched label inner))
    (f : StockFilter) : motive f :=
  @StockFilter.rec motive (fun fs => ∀ f ∈ fs, motive f) commonTags renameTag ignoreTags
    replaceTagValues byPredicate byName metricCap tagCap expectedBound mapClosure acceptClosure
    configureClosure passThrough boxed chain watched (fun _ h => nomatch h)
    (fun _ _ hf hrest => List.forall_mem_cons.2 ⟨hf, hrest⟩) f

/-! ## Filters by name -/

/-- Accept meters for which a predicate holds. -/
def acceptIf (predicate : MeterId → Except Panic Bool) : StockFilter :=
  byPredicate predicate .accept .neutral

/-- Deny meters for which a predicate holds. -/
def denyIf (predicate : MeterId → Except Panic Bool) : StockFilter :=
  byPredicate predicate .deny .neutral

/-- Deny meters for which a predicate does not hold. -/
def denyUnless (predicate : MeterId → Except Panic Bool) : StockFilter :=
  byPredicate predicate .neutral .deny

/-- Accept every meter. -/
def acceptAll : StockFilter := acceptIf fun _ => .ok true

/-- Deny every meter. -/
def denyAll : StockFilter := denyIf fun _ => .ok true

/-- Accept names that begin as given. -/
def acceptNameStartsWith (start : String) : StockFilter := byName start .accept .neutral

/-- Deny names that begin as given. -/
def denyNameStartsWith (start : String) : StockFilter := byName start .deny .neutral

/-- Deny names that do not begin as given. -/
def denyUnlessNameStartsWith (start : String) : StockFilter := byName start .neutral .deny

/-- An expected maximum for timers. -/
def maxExpectedTimer (start : String) (max : Duration) : StockFilter :=
  expectedBound start .timer (.ofMaximum max.toBound)

/-- An expected maximum for distribution summaries. -/
def maxExpectedSummary (start : String) (max : Binary64) : StockFilter :=
  expectedBound start .distributionSummary (.ofMaximum max)

/-- An expected minimum for timers. -/
def minExpectedTimer (start : String) (min : Duration) : StockFilter :=
  expectedBound start .timer (.ofMinimum min.toBound)

/-- An expected minimum for distribution summaries. -/
def minExpectedSummary (start : String) (min : Binary64) : StockFilter :=
  expectedBound start .distributionSummary (.ofMinimum min)

/-! ## Leaves -/

mutual

/-- The filters that do the work, from left to right: boxes and nested chains are opened. -/
def leaves : StockFilter → List StockFilter
  | boxed inner => inner.leaves
  | chain filters => leavesOfAll filters
  | leaf => [leaf]

/-- The leaves of a list of filters. -/
def leavesOfAll : List StockFilter → List StockFilter
  | [] => []
  | f :: rest => f.leaves ++ leavesOfAll rest

end

end StockFilter

end MeterGate
