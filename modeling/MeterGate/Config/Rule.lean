import MeterGate.Binary64.Basic
import MeterGate.Meter

set_option autoImplicit false

/-! # Rules

A chain can be described without closures: by a list of rules, each of which names a filter and its
settings. A `ChainConfig` is such a list with the level at which to log. Counts are 64-bit words, so
a rule says exactly what its text can say. -/

namespace MeterGate

/-! ## Kinds of rules -/

/-- What a rule describes. -/
inductive RuleKind where
  | commonTags
  | renameTag
  | ignoreTags
  | replaceTagValues
  | accept
  | deny
  | acceptNameStartsWith
  | denyNameStartsWith
  | denyUnlessNameStartsWith
  | maximumAllowableMetrics
  | maximumAllowableTags
  | maxExpected
  | minExpected
deriving DecidableEq, Repr

namespace RuleKind

/-- Every kind of rule, in the order in which messages list them. -/
def all : List RuleKind :=
  [.commonTags, .renameTag, .ignoreTags, .replaceTagValues, .accept, .deny, .acceptNameStartsWith,
   .denyNameStartsWith, .denyUnlessNameStartsWith, .maximumAllowableMetrics, .maximumAllowableTags,
   .maxExpected, .minExpected]

/-- The name of a kind in configurations. -/
def label : RuleKind → String
  | .commonTags => "common_tags"
  | .renameTag => "rename_tag"
  | .ignoreTags => "ignore_tags"
  | .replaceTagValues => "replace_tag_values"
  | .accept => "accept"
  | .deny => "deny"
  | .acceptNameStartsWith => "accept_name_starts_with"
  | .denyNameStartsWith => "deny_name_starts_with"
  | .denyUnlessNameStartsWith => "deny_unless_name_starts_with"
  | .maximumAllowableMetrics => "maximum_allowable_metrics"
  | .maximumAllowableTags => "maximum_allowable_tags"
  | .maxExpected => "max_expected"
  | .minExpected => "min_expected"

/-- The kind of a name. -/
def ofLabel? (s : String) : Option RuleKind := all.find? (·.label == s)

theorem ofLabel?_label (k : RuleKind) : ofLabel? k.label = some k := by cases k <;> decide

/-- The two kinds that limit cardinality. -/
def isLimiter : RuleKind → Bool
  | .maximumAllowableMetrics | .maximumAllowableTags => true
  | _ => false

end RuleKind

/-! ## Rules and configs -/

/-- A bound on the histograms of meters whose name begins as given: in milliseconds for timers, as
    a plain number for distribution summaries. -/
structure ExpectedBound where
  start : String
  type : MeterType
  millis : Option UInt64 := none
  value : Option Binary64 := none
deriving DecidableEq, Repr

/-- One entry of a chain's description. -/
inductive Rule where
  | commonTags (tags : List Tag)
  | renameTag (start fromKey toKey : String)
  | ignoreTags (keys : List String)
  | replaceTagValues (key replacement : String) (exceptions : List String)
  | accept
  | deny
  | acceptNameStartsWith (start : String)
  | denyNameStartsWith (start : String)
  | denyUnlessNameStartsWith (start : String)
  | maximumAllowableMetrics (max : UInt64)
  | maximumAllowableTags (name key : String) (max : UInt64) (overflow : Rule)
  | maxExpected (bound : ExpectedBound)
  | minExpected (bound : ExpectedBound)
deriving DecidableEq, Repr

namespace Rule

instance : Inhabited Rule := ⟨.accept⟩

/-- The kind of a rule. -/
def kind : Rule → RuleKind
  | .commonTags .. => .commonTags
  | .renameTag .. => .renameTag
  | .ignoreTags .. => .ignoreTags
  | .replaceTagValues .. => .replaceTagValues
  | .accept => .accept
  | .deny => .deny
  | .acceptNameStartsWith .. => .acceptNameStartsWith
  | .denyNameStartsWith .. => .denyNameStartsWith
  | .denyUnlessNameStartsWith .. => .denyUnlessNameStartsWith
  | .maximumAllowableMetrics .. => .maximumAllowableMetrics
  | .maximumAllowableTags .. => .maximumAllowableTags
  | .maxExpected .. => .maxExpected
  | .minExpected .. => .minExpected

end Rule

/-- The description of a chain. -/
structure ChainConfig where
  logLevel : String := "info"
  rules : List Rule := []
deriving DecidableEq, Repr, Inhabited

end MeterGate
