import MeterGate.Proofs.GoodConfig

set_option autoImplicit false

/-! # Rules that are well formed

What a rule must be like is said here without the check (`Rule.WellFormed`), and so is what each
fault means (`Rule.HasFault`). The check finds no fault in a rule exactly if it is well formed
(`Rule.fault?_eq_none_iff`), and a fault that it finds says something that is so
(`Rule.hasFault_of_fault?`). Its message begins with the place of the rule, extended for a fault in
the rule for an overflow (`RuleFault.message_eq`). -/

namespace MeterGate

/-! ## What rules must be like -/

/-- The bound of a timer is a positive number of milliseconds, that of a distribution summary a
    finite number that is not negative, and there are no others. -/
def ExpectedBound.WellFormed (b : ExpectedBound) : Prop :=
  (b.type = .timer ∧ b.value = none ∧ ∃ millis, b.millis = some millis ∧ 1 ≤ millis) ∨
  (b.type = .distributionSummary ∧ b.millis = none ∧
    ∃ value, b.value = some value ∧ value.isFinite = true ∧ Binary64.le .zero value = true)

/-- Keys and the name of a limited meter are not empty, bounds are well formed, and no limiter
    stands behind a limiter. -/
def Rule.WellFormed : Rule → Prop
  | .commonTags tags => ∀ t ∈ tags, t.key ≠ ""
  | .renameTag _ fromKey toKey => fromKey ≠ "" ∧ toKey ≠ ""
  | .ignoreTags keys => keys ≠ [] ∧ ∀ key ∈ keys, key ≠ ""
  | .replaceTagValues key _ _ => key ≠ ""
  | .maximumAllowableTags name key _ overflow =>
      name ≠ "" ∧ key ≠ "" ∧ overflow.kind ≠ .maximumAllowableMetrics ∧
        overflow.kind ≠ .maximumAllowableTags ∧ overflow.WellFormed
  | .maxExpected b | .minExpected b => b.WellFormed
  | .accept | .deny | .acceptNameStartsWith _ | .denyNameStartsWith _ | .denyUnlessNameStartsWith _
  | .maximumAllowableMetrics _ => True

/-! ## What faults say -/

/-- What the fault of a bound says is so. -/
inductive ExpectedBound.HasFault (b : ExpectedBound) : RuleFault → Prop where
  | zeroMillis : b.type = .timer → b.millis = some 0 → HasFault b .zeroMillis
  | missingMillis : b.type = .timer → b.millis = none → HasFault b .missingMillis
  | valueOnTimer {value : Binary64} : b.type = .timer → b.value = some value →
      HasFault b .valueOnTimer
  | badValue {value : Binary64} : b.type = .distributionSummary → b.value = some value →
      ¬ (value.isFinite = true ∧ Binary64.le .zero value = true) → HasFault b (.badValue value)
  | missingValue : b.type = .distributionSummary → b.value = none → HasFault b .missingValue
  | millisOnSummary {millis : UInt64} : b.type = .distributionSummary → b.millis = some millis →
      HasFault b .millisOnSummary
  | boundOnOther : b.type ≠ .timer → b.type ≠ .distributionSummary →
      HasFault b (.boundOnOther b.type)

/-- What the fault of a rule says is so: of the rule itself, or of the one for its overflow. -/
inductive Rule.HasFault : Rule → RuleFault → Prop where
  | tagKey {tags : List Tag} {t : Tag} : t ∈ tags → t.key = "" →
      HasFault (.commonTags tags) (.emptyText .tagKey)
  | fromKey {start toKey : String} : HasFault (.renameTag start "" toKey) (.emptyText .fromKey)
  | toKey {start fromKey : String} : HasFault (.renameTag start fromKey "") (.emptyText .toKey)
  | noKeys : HasFault (.ignoreTags []) .noKeys
  | ignoredKey {keys : List String} : "" ∈ keys →
      HasFault (.ignoreTags keys) (.emptyText .ignoredKey)
  | replacedKey {replacement : String} {exceptions : List String} :
      HasFault (.replaceTagValues "" replacement exceptions) (.emptyText .limitedKey)
  | meterName {key : String} {max : UInt64} {overflow : Rule} :
      HasFault (.maximumAllowableTags "" key max overflow) (.emptyText .meterName)
  | limitedKey {name : String} {max : UInt64} {overflow : Rule} :
      HasFault (.maximumAllowableTags name "" max overflow) (.emptyText .limitedKey)
  | limiterAsOverflow {name key : String} {max : UInt64} {overflow : Rule} :
      overflow.kind = .maximumAllowableMetrics ∨ overflow.kind = .maximumAllowableTags →
      HasFault (.maximumAllowableTags name key max overflow) (.limiterAsOverflow overflow.kind)
  | ofOverflow {name key : String} {max : UInt64} {overflow : Rule} {fault : RuleFault} :
      HasFault overflow fault →
      HasFault (.maximumAllowableTags name key max overflow) (.ofOverflow fault)
  | maximum {b : ExpectedBound} {fault : RuleFault} : b.HasFault fault →
      HasFault (.maxExpected b) fault
  | minimum {b : ExpectedBound} {fault : RuleFault} : b.HasFault fault →
      HasFault (.minExpected b) fault

theorem ExpectedBound.HasFault.not_wellFormed {b : ExpectedBound} {fault : RuleFault}
    (h : b.HasFault fault) : ¬ b.WellFormed := by
  rintro (⟨timer, noValue, millis, given, positive⟩ | ⟨summary, noMillis, value, given, good⟩)
  · cases h with
    | zeroMillis _ zero =>
        rw [given, Option.some.injEq] at zero
        exact absurd positive (by rw [zero]; decide)
    | _ => simp_all
  · cases h <;> simp_all

theorem Rule.HasFault.not_wellFormed {rule : Rule} {fault : RuleFault} (h : rule.HasFault fault) :
    ¬ rule.WellFormed := by
  intro good
  induction h with
  | tagKey listed empty => exact good _ listed empty
  | fromKey => exact good.1 rfl
  | toKey => exact good.2 rfl
  | noKeys => exact good.1 rfl
  | ignoredKey listed => exact good.2 _ listed rfl
  | replacedKey => exact good rfl
  | meterName => exact good.1 rfl
  | limitedKey => exact good.2.1 rfl
  | limiterAsOverflow limiter =>
      obtain ⟨-, -, noCap, noLimit, -⟩ := good
      rcases limiter with cap | limit
      · exact noCap cap
      · exact noLimit limit
  | ofOverflow _ ih => exact ih good.2.2.2.2
  | maximum h | minimum h => exact h.not_wellFormed good

/-! ## The faults that are found -/

namespace RuleKind

theorem isLimiter_iff (kind : RuleKind) :
    kind.isLimiter = true ↔ kind = .maximumAllowableMetrics ∨ kind = .maximumAllowableTags := by
  cases kind <;> decide

end RuleKind

theorem RequiredText.eq_of_fault? {text : RequiredText} {s : String} {fault : RuleFault}
    (h : text.fault? s = some fault) : s = "" ∧ fault = .emptyText text := by
  simp only [fault?, Option.ite_none_right_eq_some, Option.some.injEq] at h
  exact ⟨h.1, h.2.symm⟩

namespace ExpectedBound

theorem hasFault_of_fault? {b : ExpectedBound} {fault : RuleFault} (h : b.fault? = some fault) :
    b.HasFault fault := by
  obtain ⟨start, type, millis, value⟩ := b
  cases type with
  | timer =>
      cases millis with
      | none =>
          obtain rfl : RuleFault.missingMillis = fault := Option.some.inj h
          exact .missingMillis rfl rfl
      | some millis =>
          simp only [fault?, timerFault?] at h
          split at h
          · next zero =>
              obtain rfl := Option.some.inj h
              subst zero
              exact .zeroMillis rfl rfl
          · cases value with
            | none => cases h
            | some value =>
                obtain rfl : RuleFault.valueOnTimer = fault := Option.some.inj h
                exact .valueOnTimer rfl rfl
  | distributionSummary =>
      cases value with
      | none =>
          obtain rfl : RuleFault.missingValue = fault := Option.some.inj h
          exact .missingValue rfl rfl
      | some value =>
          cases millis with
          | some millis =>
              obtain rfl : RuleFault.millisOnSummary = fault := Option.some.inj h
              exact .millisOnSummary rfl rfl
          | none =>
              simp only [fault?, summaryFault?] at h
              split at h
              · cases h
              · next bad =>
                  obtain rfl := Option.some.inj h
                  exact .badValue rfl rfl (by simpa using bad)
  | counter | gauge | longTaskTimer | other =>
      obtain rfl := Option.some.inj h
      exact .boundOnOther (by simp) (by simp)

theorem wellFormed_of_fault? {b : ExpectedBound} (h : b.fault? = none) : b.WellFormed := by
  obtain ⟨start, type, millis, value⟩ := b
  cases type with
  | timer =>
      cases millis with
      | none => cases h
      | some millis =>
          simp only [fault?, timerFault?] at h
          split at h
          · cases h
          · next positive =>
              cases value with
              | some value => cases h
              | none =>
                  refine .inl ⟨rfl, rfl, millis, rfl, ?_⟩
                  exact UInt64.pos_iff_ne_zero.2 positive
  | distributionSummary =>
      cases value with
      | none => cases h
      | some value =>
          cases millis with
          | some millis => cases h
          | none =>
              simp only [fault?, summaryFault?] at h
              split at h
              · next good =>
                  refine .inr ⟨rfl, rfl, value, rfl, ?_⟩
                  simpa using good
              · cases h
  | counter | gauge | longTaskTimer | other => cases h

end ExpectedBound

namespace Rule

theorem hasFault_of_fault? {rule : Rule} {fault : RuleFault} (h : rule.fault? = some fault) :
    rule.HasFault fault := by
  induction rule generalizing fault with
  | commonTags tags =>
      obtain ⟨t, listed, found⟩ := List.exists_of_findSome?_eq_some h
      obtain ⟨empty, rfl⟩ := RequiredText.eq_of_fault? found
      exact .tagKey listed empty
  | renameTag start fromKey toKey =>
      simp only [fault?, Option.orElse_eq_orElse, Option.orElse_eq_or, Option.or_eq_some_iff] at h
      rcases h with found | ⟨-, found⟩
      · obtain ⟨rfl, rfl⟩ := RequiredText.eq_of_fault? found
        exact .fromKey
      · obtain ⟨rfl, rfl⟩ := RequiredText.eq_of_fault? found
        exact .toKey
  | ignoreTags keys =>
      simp only [fault?] at h
      split at h
      · next empty =>
          obtain rfl := Option.some.inj h
          obtain rfl := List.isEmpty_iff.1 empty
          exact .noKeys
      · obtain ⟨key, listed, found⟩ := List.exists_of_findSome?_eq_some h
        obtain ⟨rfl, rfl⟩ := RequiredText.eq_of_fault? found
        exact .ignoredKey listed
  | replaceTagValues key replacement exceptions =>
      obtain ⟨rfl, rfl⟩ := RequiredText.eq_of_fault? h
      exact .replacedKey
  | maximumAllowableTags name key max overflow ih =>
      simp only [fault?, Option.orElse_eq_orElse, Option.orElse_eq_or, Option.or_eq_some_iff] at h
      rcases h with found | ⟨-, found | ⟨-, found⟩⟩
      · obtain ⟨rfl, rfl⟩ := RequiredText.eq_of_fault? found
        exact .meterName
      · obtain ⟨rfl, rfl⟩ := RequiredText.eq_of_fault? found
        exact .limitedKey
      · split at found
        · next limiter =>
            obtain rfl := Option.some.inj found
            exact .limiterAsOverflow (overflow.kind.isLimiter_iff.1 limiter)
        · obtain ⟨inner, own, rfl⟩ := Option.map_eq_some_iff.1 found
          exact .ofOverflow (ih own)
  | maxExpected b => exact .maximum (ExpectedBound.hasFault_of_fault? h)
  | minExpected b => exact .minimum (ExpectedBound.hasFault_of_fault? h)
  | _ => cases h

theorem wellFormed_of_fault? {rule : Rule} (h : rule.fault? = none) : rule.WellFormed := by
  induction rule with
  | commonTags tags =>
      intro t listed
      exact (RequiredText.fault?_eq_none _ _).1 (List.findSome?_eq_none_iff.1 h t listed)
  | renameTag start fromKey toKey =>
      simpa [fault?, RequiredText.fault?_eq_none, WellFormed] using h
  | ignoreTags keys =>
      simp only [fault?] at h
      split at h
      · cases h
      · next some =>
          refine ⟨fun empty => some (List.isEmpty_iff.2 empty), fun key listed => ?_⟩
          exact (RequiredText.fault?_eq_none _ _).1 (List.findSome?_eq_none_iff.1 h key listed)
  | replaceTagValues key replacement exceptions => exact (RequiredText.fault?_eq_none _ _).1 h
  | maximumAllowableTags name key max overflow ih =>
      obtain ⟨plain, good⟩ := overflow_of_fault? h
      have texts : name ≠ "" ∧ key ≠ "" := by
        simp only [fault?, Option.orElse_eq_orElse, Option.orElse_eq_or, Option.or_eq_none_iff,
          RequiredText.fault?_eq_none] at h
        exact ⟨h.1, h.2.1⟩
      have noLimiter := (not_congr overflow.kind.isLimiter_iff).1 (by simp [plain])
      rw [not_or] at noLimiter
      exact ⟨texts.1, texts.2, noLimiter.1, noLimiter.2, ih good⟩
  | maxExpected b | minExpected b => exact ExpectedBound.wellFormed_of_fault? h
  | _ => trivial

/-- A rule is well formed exactly if no fault is found in it. -/
theorem fault?_eq_none_iff (rule : Rule) : rule.fault? = none ↔ rule.WellFormed := by
  refine ⟨wellFormed_of_fault?, fun good => ?_⟩
  cases found : rule.fault? with
  | none => rfl
  | some fault => exact absurd good (hasFault_of_fault? found).not_wellFormed

end Rule

/-! ## Where a fault is -/

/-- Where a fault is in the rule at a place: in the rule itself, or in the one for its overflow. -/
def RuleFault.site (place : String) : RuleFault → String
  | .ofOverflow fault => fault.site (place ++ ".on_max_reached")
  | _ => place

/-- A message begins with where the fault is. -/
theorem RuleFault.message_eq (fault : RuleFault) :
    ∃ text, ∀ place, fault.message place = fault.site place ++ ": " ++ text := by
  -- A text after a colon is that text, put behind the colon.
  have behind : ∀ place told text : String, told = ": " ++ text →
      place ++ told = place ++ ": " ++ text := by
    rintro place _ text rfl
    rw [String.append_assoc]
  induction fault with
  | ofOverflow fault ih =>
      obtain ⟨text, told⟩ := ih
      exact ⟨text, fun place => told _⟩
  | emptyText text =>
      refine ⟨text.label ++ " must not be empty", fun place => ?_⟩
      simp only [message, site, String.append_assoc]
  | limiterAsOverflow kind =>
      refine ⟨"on_max_reached cannot be another cardinality limiter (" ++ kind.label ++ ")",
        fun place => ?_⟩
      simp only [message, site, String.append_assoc]
      rfl
  | badValue value =>
      refine ⟨"summary bound must be a finite, non-negative number, got " ++ value.text,
        fun place => ?_⟩
      simp only [message, site, String.append_assoc]
      rfl
  | boundOnOther type =>
      refine ⟨"expected-value bounds only apply to timers and distribution summaries, got "
        ++ type.label, fun place => ?_⟩
      simp only [message, site, String.append_assoc]
      rfl
  | noKeys => exact ⟨"ignore_tags needs at least one key", fun place => behind _ _ _ rfl⟩
  | zeroMillis =>
      exact ⟨"timer bound must be greater than 0 millis", fun place => behind _ _ _ rfl⟩
  | missingMillis => exact ⟨"timer bound requires 'millis'", fun place => behind _ _ _ rfl⟩
  | valueOnTimer =>
      exact ⟨"timer bound takes 'millis', not 'value'", fun place => behind _ _ _ rfl⟩
  | missingValue => exact ⟨"summary bound requires 'value'", fun place => behind _ _ _ rfl⟩
  | millisOnSummary =>
      exact ⟨"summary bound takes 'value', not 'millis'", fun place => behind _ _ _ rfl⟩

end MeterGate
