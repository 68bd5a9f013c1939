import MeterGate.Config.Check
import MeterGate.StockFilter

set_option autoImplicit false

/-! # Building a chain from a config

Each rule becomes the filter that it names, in the order of the rules. A limiter gets a fresh place
in the store, so chains that are built separately share nothing. A config that does not pass its
check builds nothing and reports nothing. -/

namespace MeterGate

namespace ExpectedBound

/-- A timer's bound, as the length of time it stands for. -/
def duration (b : ExpectedBound) : Duration := .ofMillis (b.millis.getD 0)

/-- The filter of an expected maximum. -/
def maxFilter (b : ExpectedBound) : StockFilter :=
  match b.type with
  | .timer => .maxExpectedTimer b.start b.duration
  | _ => .maxExpectedSummary b.start (b.value.getD .zero)

/-- The filter of an expected minimum. -/
def minFilter (b : ExpectedBound) : StockFilter :=
  match b.type with
  | .timer => .minExpectedTimer b.start b.duration
  | _ => .minExpectedSummary b.start (b.value.getD .zero)

end ExpectedBound

namespace Rule

/-- The filter that a rule names, and the store with room for its limiters. -/
def build : Rule → Store → StockFilter × Store
  | .commonTags tags, s => (.commonTags tags, s)
  | .renameTag start fromKey toKey, s => (.renameTag start fromKey toKey, s)
  | .ignoreTags keys, s => (.ignoreTags keys, s)
  | .replaceTagValues key replacement exceptions, s =>
      (.replaceTagValues key (fun _ => .ok replacement) exceptions, s)
  | .accept, s => (.acceptAll, s)
  | .deny, s => (.denyAll, s)
  | .acceptNameStartsWith start, s => (.acceptNameStartsWith start, s)
  | .denyNameStartsWith start, s => (.denyNameStartsWith start, s)
  | .denyUnlessNameStartsWith start, s => (.denyUnlessNameStartsWith start, s)
  | .maximumAllowableMetrics max, s =>
      let (place, s) := s.newMetricCap
      (.metricCap place max.toNat, s)
  | .maximumAllowableTags name key max overflow, s =>
      let (overflow, s) := overflow.build s
      let (place, s) := s.newTagCap
      (.tagCap place ⟨name, key, max.toNat⟩ overflow, s)
  | .maxExpected b, s => (b.maxFilter, s)
  | .minExpected b, s => (b.minFilter, s)

/-- The filters of a list of rules. -/
def buildAll : List Rule → Store → List StockFilter × Store
  | [], s => ([], s)
  | rule :: rest, s =>
      let (f, s) := rule.build s
      let (fs, s) := buildAll rest s
      (f :: fs, s)

theorem length_buildAll (rules : List Rule) (s : Store) :
    (buildAll rules s).1.length = rules.length := by
  induction rules generalizing s with
  | nil => rfl
  | cons rule rest ih => simp [buildAll, ih]

end Rule

/-- Check a config and build its chain, which is reported with the number of its filters. -/
def ChainConfig.build (c : ChainConfig) (w : World Store) (order : TableOrder := .asPut) :
    EStateM.Result ConfigFault (World Store) (List StockFilter) :=
  match c.validate order with
  | .error fault => .error fault w
  | .ok () =>
      let (filters, store) := Rule.buildAll c.rules w.state
      .ok filters (World.log (.chainBuilt filters.length) { w with state := store })

end MeterGate
