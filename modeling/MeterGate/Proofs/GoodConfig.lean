import MeterGate.Proofs.Rounding
import MeterGate.Proofs.RuleEffect

set_option autoImplicit false

/-! # What the check of a config promises

A config that passes its check has no limiter behind a limiter (`Rule.Flat`), and every bound in it
is well formed (`fault?_of_mem_bounds`). Of the bounds of one side for one meter type, the check of
ranges looks at the last one in the list of rules (`Rule.lastBound?`), wherever it stands. Two such
bounds pass if the maximum is not below the minimum, as magnitudes (`ChainConfig.not_lt_of_valid`).
A magnitude counts milliseconds where a filter counts nanoseconds, and each is rounded, so the order
of the magnitudes is that of the filters' limits only up to 2^53 (`ExpectedBound.coarse_of_lt`). -/

namespace MeterGate

/-! ## Limiters -/

namespace Rule

/-- No limiter stands behind a limiter. -/
def Flat : Rule → Prop
  | .maximumAllowableTags _ _ _ overflow => overflow.kind.isLimiter = false
  | _ => True

/-- What follows a good limit is good, and is no limiter. -/
theorem overflow_of_fault? {name key : String} {max : UInt64} {overflow : Rule}
    (good : (maximumAllowableTags name key max overflow).fault? = none) :
    overflow.kind.isLimiter = false ∧ overflow.fault? = none := by
  cases limiter : overflow.kind.isLimiter with
  | true => simp [fault?, limiter] at good
  | false =>
      have parts : RequiredText.meterName.fault? name = none
          ∧ RequiredText.limitedKey.fault? key = none ∧ overflow.fault? = none := by
        simpa [fault?, limiter] using good
      exact ⟨rfl, parts.2.2⟩

theorem flat_of_fault? {rule : Rule} (good : rule.fault? = none) : rule.Flat := by
  cases rule with
  | maximumAllowableTags name key max overflow => exact (overflow_of_fault? good).1
  | _ => trivial

end Rule

namespace ChainConfig

variable {c : ChainConfig}

theorem fault?_eq_none_of_valid (valid : c.validate = .ok ()) {rule : Rule}
    (h : rule ∈ c.rules) : rule.fault? = none := by
  have unreported := List.findSome?_eq_none_iff.1 ((validate_eq_ok_iff c _).1 valid).1
  obtain ⟨i, hi, rfl⟩ := List.mem_iff_getElem.1 h
  have listed : (c.rules[i], i) ∈ c.rules.zipIdx :=
    List.mem_zipIdx_iff_getElem?.2 (List.getElem?_eq_getElem hi)
  exact Option.map_eq_none_iff.1 (unreported _ listed)

theorem flat_of_valid (valid : c.validate = .ok ()) : ∀ rule ∈ c.rules, rule.Flat :=
  fun _ h => Rule.flat_of_fault? (fault?_eq_none_of_valid valid h)

end ChainConfig

/-! ## Bounds -/

/-- The two ends of a range. -/
inductive Side where
  | maximum
  | minimum
deriving DecidableEq, Repr

namespace Rule

/-- The bounds of one side that a rule brings, its overflow rule's included. -/
def boundsOf : Side → Rule → List ExpectedBound
  | .maximum => maxima
  | .minimum => minima

@[simp] theorem boundsOf_overflow (side : Side) (name key : String) (max : UInt64)
    (overflow : Rule) :
    (maximumAllowableTags name key max overflow).boundsOf side = overflow.boundsOf side := by
  cases side <;> rfl

/-- The bound of one side that the last rule with one brings for meters of a type. -/
def lastBound? (side : Side) (type : MeterType) (rules : List Rule) : Option ExpectedBound :=
  ((rules.flatMap (boundsOf side)).filter (·.type = type)).getLast?

theorem mem_of_lastBound? {side : Side} {type : MeterType} {rules : List Rule} {b : ExpectedBound}
    (h : lastBound? side type rules = some b) :
    b ∈ rules.flatMap (boundsOf side) ∧ b.type = type := by
  have found := List.mem_of_getLast? h
  rw [List.mem_filter, decide_eq_true_iff] at found
  exact found

theorem fault?_of_mem_boundsOf {side : Side} {rule : Rule} (good : rule.fault? = none) :
    ∀ b ∈ rule.boundsOf side, b.fault? = none := by
  induction rule with
  | maximumAllowableTags name key max overflow ih =>
      rw [boundsOf_overflow]
      exact ih (overflow_of_fault? good).2
  | maxExpected b | minExpected b =>
      intro b' h
      cases side with
      | maximum | minimum => simp_all [boundsOf, maxima, minima, fault?]
  | _ => cases side <;> simp [boundsOf, maxima, minima]

end Rule

namespace ExpectedBound

variable {b hi lo : ExpectedBound}

theorem meterType_of_fault? (good : b.fault? = none) : b.meterType = b.type := by
  unfold meterType
  unfold fault? at good
  split at good
  · next h => rw [if_pos h, h]
  · next h => rw [if_neg (by simp [h]), h]
  · cases good

theorem usesDistributionConfig_of_fault? (good : b.fault? = none) :
    b.type.usesDistributionConfig = true := by
  unfold fault? at good
  split at good
  · next h => rw [h]; rfl
  · next h => rw [h]; rfl
  · cases good

theorem limit_of_timer (h : b.type = .timer) :
    b.limit = .ofNat ((b.millis.getD 0).toNat * 1000000) := by
  rw [limit, if_pos h, Duration.toBound, duration, Duration.totalNanos_ofMillis]

theorem magnitude_of_timer (h : b.type = .timer) :
    b.magnitude = .ofNat (b.millis.getD 0).toNat := by
  unfold magnitude
  rw [h]

theorem magnitude_of_summary (h : b.type ≠ .timer) : b.magnitude = b.limit := by
  rw [limit, if_neg h]
  unfold magnitude
  split
  · next timer => exact absurd timer h
  · rfl

/-- Limits can only be the other way round than their magnitudes where milliseconds are too many to
    be told apart as doubles. -/
theorem coarse_of_lt (same : hi.type = lo.type) (inverted : Binary64.lt hi.limit lo.limit = true)
    (passed : Binary64.lt hi.magnitude lo.magnitude = false) :
    lo.type = .timer ∧ 2 ^ 53 < (lo.millis.getD 0).toNat := by
  by_cases timer : lo.type = .timer
  · refine ⟨timer, ?_⟩
    rw [limit_of_timer timer, limit_of_timer (same.trans timer)] at inverted
    rw [magnitude_of_timer timer, magnitude_of_timer (same.trans timer)] at passed
    have fewer := Binary64.lt_of_lt_ofNat inverted
    by_contra fine
    have told :=
      (Binary64.lt_ofNat_iff (Nat.le_of_not_lt fine)).2 (Nat.lt_of_mul_lt_mul_right fewer)
    exact absurd told (by rw [passed]; decide)
  · rw [magnitude_of_summary timer, magnitude_of_summary (same ▸ timer), inverted] at passed
    exact absurd passed (by decide)

end ExpectedBound

/-! ## Ranges -/

namespace ChainConfig

variable {c : ChainConfig} {start : String} {type : MeterType}

/-- All bounds for meters of a type, wherever they stand, have the same prefix. -/
def SharesPrefix (c : ChainConfig) (type : MeterType) (start : String) : Prop :=
  ∀ side, ∀ b ∈ c.rules.flatMap (Rule.boundsOf side), b.type = type → b.start = start

theorem fault?_of_mem_bounds (valid : c.validate = .ok ()) {side : Side} {b : ExpectedBound}
    (h : b ∈ c.rules.flatMap (Rule.boundsOf side)) : b.fault? = none := by
  obtain ⟨rule, mem, own⟩ := List.mem_flatMap.1 h
  exact Rule.fault?_of_mem_boundsOf (fault?_eq_none_of_valid valid mem) b own

/-- If the bounds of a type share their prefix, the last bound for the meters of one of them is the
    last one of the type. -/
theorem lastFor?_eq_lastBound? (shared : c.SharesPrefix type start) (side : Side)
    {b : ExpectedBound} (typed : b.type = type) (started : b.start = start) :
    b.lastFor? (c.rules.flatMap (Rule.boundsOf side)) = Rule.lastBound? side type c.rules := by
  rw [ExpectedBound.lastFor?, ← List.head?_filter, List.filter_reverse,
    ← List.getLast?_eq_head?_reverse, Rule.lastBound?]
  congr 1
  refine List.filter_congr fun b' h => ?_
  rw [Bool.eq_iff_iff]
  simp only [ExpectedBound.sameMeters, Bool.and_eq_true, beq_iff_eq, decide_eq_true_iff, typed,
    started]
  constructor
  · exact fun both => both.2.symm
  · exact fun same => ⟨(shared side b' h same).symm, same.symm⟩

/-- The check compares the last bounds of a type, if its bounds share their prefix. -/
theorem not_lt_of_valid (valid : c.validate = .ok ()) (shared : c.SharesPrefix type start)
    {hi lo : ExpectedBound} (last_hi : Rule.lastBound? .maximum type c.rules = some hi)
    (last_lo : Rule.lastBound? .minimum type c.rules = some lo) :
    Binary64.lt hi.magnitude lo.magnitude = false := by
  obtain ⟨mem, typed⟩ := Rule.mem_of_lastBound? last_hi
  have started := shared .maximum hi mem typed
  have of_hi := (lastFor?_eq_lastBound? shared .maximum typed started).trans last_hi
  have of_lo := (lastFor?_eq_lastBound? shared .minimum typed started).trans last_lo
  have compared := ((validate_eq_ok_iff c _).1 valid).2 hi mem
  rw [invertedAt?, show Rule.maxima = Rule.boundsOf .maximum from rfl,
    show Rule.minima = Rule.boundsOf .minimum from rfl, of_hi, of_lo] at compared
  simpa using compared

end ChainConfig

end MeterGate
