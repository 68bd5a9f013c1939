import MeterGate.Binary64.Shortest
import MeterGate.Config.Rule

set_option autoImplicit false

/-! # Checking a config

A config is good if each rule is well formed on its own and no expected maximum lies below the
expected minimum of the same meters. The first rule that is not well formed is reported with its
place in the list; ranges are only looked at when all rules are well formed.

Several bounds of one side for the same meters count as the last of them. Bounds of overflow rules
count like the others, as they apply to the same meters. If several ranges are inverted, which of
them is reported is left open (`TableOrder`). -/

namespace MeterGate

/-! ## Faults -/

/-- A text that must not be empty. -/
inductive RequiredText where
  | tagKey
  | fromKey
  | toKey
  | ignoredKey
  | limitedKey
  | meterName
deriving DecidableEq, Repr

/-- How a required text is called in messages. -/
def RequiredText.label : RequiredText → String
  | .tagKey => "tag key"
  | .fromKey => "from_key"
  | .toKey => "to_key"
  | .ignoredKey => "ignored key"
  | .limitedKey => "tag_key"
  | .meterName => "name"

/-- What can be wrong with a rule. -/
inductive RuleFault where
  | emptyText (text : RequiredText)
  | noKeys
  | limiterAsOverflow (kind : RuleKind)
  | zeroMillis
  | missingMillis
  | valueOnTimer
  | badValue (value : Binary64)
  | missingValue
  | millisOnSummary
  | boundOnOther (type : MeterType)
  /-- A fault of the rule for the overflow of a tag limit. -/
  | ofOverflow (fault : RuleFault)
deriving DecidableEq, Repr

/-- The message of a fault of the rule at a place. -/
def RuleFault.message (place : String) : RuleFault → String
  | .emptyText text => place ++ ": " ++ text.label ++ " must not be empty"
  | .noKeys => place ++ ": ignore_tags needs at least one key"
  | .limiterAsOverflow kind =>
      place ++ ": on_max_reached cannot be another cardinality limiter (" ++ kind.label ++ ")"
  | .zeroMillis => place ++ ": timer bound must be greater than 0 millis"
  | .missingMillis => place ++ ": timer bound requires 'millis'"
  | .valueOnTimer => place ++ ": timer bound takes 'millis', not 'value'"
  | .badValue value =>
      place ++ ": summary bound must be a finite, non-negative number, got " ++ value.text
  | .missingValue => place ++ ": summary bound requires 'value'"
  | .millisOnSummary => place ++ ": summary bound takes 'value', not 'millis'"
  | .boundOnOther type =>
      place ++ ": expected-value bounds only apply to timers and distribution summaries, got "
        ++ type.label
  | .ofOverflow fault => fault.message (place ++ ".on_max_reached")

/-- What can be wrong with a config. -/
inductive ConfigFault where
  /-- The rule at an index, of a kind, is not well formed. -/
  | rule (index : Nat) (kind : RuleKind) (fault : RuleFault)
  /-- The expected maximum of some meters is below their expected minimum. -/
  | invertedRange (max min : Binary64) (type : MeterType) (start : String)
deriving DecidableEq, Repr

/-- What is wrong, in words. -/
def ConfigFault.reason : ConfigFault → String
  | .rule index kind fault =>
      fault.message ("filters[" ++ toString index ++ "] (" ++ kind.label ++ ")")
  | .invertedRange max min type start =>
      "max_expected (" ++ max.text ++ ") is below min_expected (" ++ min.text ++ ") for "
        ++ type.label ++ " meters with prefix '" ++ start ++ "'"

/-- The full message of a bad config. -/
def ConfigFault.message (fault : ConfigFault) : String := "Configuration error: " ++ fault.reason

/-! ## Rules on their own -/

/-- The fault of a text that is required and empty. -/
def RequiredText.fault? (text : RequiredText) (s : String) : Option RuleFault :=
  if s = "" then some (.emptyText text) else none

theorem RequiredText.fault?_eq_none (text : RequiredText) (s : String) :
    text.fault? s = none ↔ s ≠ "" := by simp [fault?]

namespace ExpectedBound

/-- The fault of a timer's bound, if it has one. -/
def timerFault? : Option UInt64 → Option Binary64 → Option RuleFault
  | none, _ => some .missingMillis
  | some millis, value =>
      if millis = 0 then some .zeroMillis
      else if value.isSome then some .valueOnTimer
      else none

/-- The fault of a distribution summary's bound, if it has one. -/
def summaryFault? : Option Binary64 → Option UInt64 → Option RuleFault
  | none, _ => some .missingValue
  | some _, some _ => some .millisOnSummary
  | some value, none =>
      if value.isFinite && Binary64.le .zero value then none else some (.badValue value)

/-- The fault of a bound, if it has one: timers take milliseconds, distribution summaries a value,
    and other meters no bound. -/
def fault? (b : ExpectedBound) : Option RuleFault :=
  match b.type with
  | .timer => timerFault? b.millis b.value
  | .distributionSummary => summaryFault? b.value b.millis
  | type => some (.boundOnOther type)

/-- The size of a bound among the bounds of its meter type. -/
def magnitude (b : ExpectedBound) : Binary64 :=
  match b.type with
  | .timer => .ofNat (b.millis.getD 0).toNat
  | _ => b.value.getD .zero

end ExpectedBound

namespace Rule

/-- The first fault of a rule, if it has one. -/
def fault? : Rule → Option RuleFault
  | .commonTags tags => tags.findSome? fun t => RequiredText.tagKey.fault? t.key
  | .renameTag _ fromKey toKey =>
      RequiredText.fromKey.fault? fromKey <|> RequiredText.toKey.fault? toKey
  | .ignoreTags keys =>
      if keys.isEmpty then some .noKeys else keys.findSome? RequiredText.ignoredKey.fault?
  | .replaceTagValues key _ _ => RequiredText.limitedKey.fault? key
  | .maximumAllowableTags name key _ overflow =>
      RequiredText.meterName.fault? name
        <|> RequiredText.limitedKey.fault? key
        <|> if overflow.kind.isLimiter then some (.limiterAsOverflow overflow.kind)
            else overflow.fault?.map .ofOverflow
  | .maxExpected b => b.fault?
  | .minExpected b => b.fault?
  | .accept | .deny | .acceptNameStartsWith _ | .denyNameStartsWith _ | .denyUnlessNameStartsWith _
  | .maximumAllowableMetrics _ => none

/-! ## Ranges -/

/-- The expected maxima that a rule brings, its overflow rule's included. -/
def maxima : Rule → List ExpectedBound
  | .maxExpected b => [b]
  | .maximumAllowableTags _ _ _ overflow => overflow.maxima
  | _ => []

/-- The expected minima that a rule brings, its overflow rule's included. -/
def minima : Rule → List ExpectedBound
  | .minExpected b => [b]
  | .maximumAllowableTags _ _ _ overflow => overflow.minima
  | _ => []

end Rule

/-- Whether two bounds are given for the same meters. -/
def ExpectedBound.sameMeters (a b : ExpectedBound) : Bool :=
  a.start == b.start && a.type == b.type

/-- The last of the bounds that are for the same meters as a given one. -/
def ExpectedBound.lastFor? (b : ExpectedBound) (bounds : List ExpectedBound) :
    Option ExpectedBound :=
  bounds.reverse.find? b.sameMeters

/-- In what order the bounds in a hash table are met. A table is hashed with a key of its own, so
    this may be any order, and another one at the next check of the same config. -/
structure TableOrder where
  arrange : List ExpectedBound → List ExpectedBound
  perm : ∀ bounds, (arrange bounds).Perm bounds

/-- The order in which bounds are put in. -/
def TableOrder.asPut : TableOrder := ⟨id, fun bounds => .refl bounds⟩

/-- The range of the meters of a bound, if its maximum is below its minimum. Of several bounds of a
    side the last one counts. -/
def invertedAt? (maxima minima : List ExpectedBound) (b : ExpectedBound) : Option ConfigFault :=
  match b.lastFor? maxima, b.lastFor? minima with
  | some max, some min =>
      if Binary64.lt max.magnitude min.magnitude then
        some (.invertedRange max.magnitude min.magnitude b.type b.start)
      else none
  | _, _ => none

/-- The first maximum below the minimum of the same meters that is met. -/
def invertedRange? (maxima minima : List ExpectedBound) (order : TableOrder := .asPut) :
    Option ConfigFault :=
  (order.arrange maxima).findSome? (invertedAt? maxima minima)

/-- In whatever order bounds are met, all of them are. -/
theorem invertedRange?_eq_none_iff (maxima minima : List ExpectedBound) (order : TableOrder) :
    invertedRange? maxima minima order = none ↔
      ∀ b ∈ maxima, invertedAt? maxima minima b = none := by
  simp only [invertedRange?, List.findSome?_eq_none_iff, (order.perm maxima).mem_iff]

namespace ChainConfig

/-- The first rule that is not well formed, with its fault. -/
def ruleFault? (c : ChainConfig) : Option ConfigFault :=
  c.rules.zipIdx.findSome? fun (rule, index) => rule.fault?.map (.rule index rule.kind)

/-- The fault of a config, if it has one. -/
def fault? (c : ChainConfig) (order : TableOrder := .asPut) : Option ConfigFault :=
  c.ruleFault?
    <|> invertedRange? (c.rules.flatMap Rule.maxima) (c.rules.flatMap Rule.minima) order

/-- Check a config. -/
def validate (c : ChainConfig) (order : TableOrder := .asPut) : Except ConfigFault Unit :=
  match c.fault? order with
  | some fault => .error fault
  | none => .ok ()

/-- A config passes in whatever order bounds are met, or in none. -/
theorem validate_eq_ok_iff (c : ChainConfig) (order : TableOrder) :
    c.validate order = .ok () ↔ c.ruleFault? = none ∧ ∀ b ∈ c.rules.flatMap Rule.maxima,
      invertedAt? (c.rules.flatMap Rule.maxima) (c.rules.flatMap Rule.minima) b = none := by
  rw [← invertedRange?_eq_none_iff _ _ order, validate, fault?]
  cases c.ruleFault? with
  | some fault => simp
  | none =>
      cases invertedRange? (c.rules.flatMap Rule.maxima) (c.rules.flatMap Rule.minima) order <;>
        simp

theorem validate_congr (c : ChainConfig) (order order' : TableOrder) :
    c.validate order = .ok () ↔ c.validate order' = .ok () :=
  (c.validate_eq_ok_iff order).trans (c.validate_eq_ok_iff order').symm

end ChainConfig

end MeterGate
