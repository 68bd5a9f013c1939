import MeterGate.Proofs.History
import MeterGate.Proofs.Panic

set_option autoImplicit false

/-! # Histogram settings in closed form

A built chain lays the bounds of its active rules over the settings that it is given
(`Rule.configure_buildAll_active`). Which rules are active (`Rule.activeAll`) is a matter of what
the limits on tag values hold at that time: each rule of the list is, and the one behind a limit
while the limit holds more values than it allows.

Of bounds laid one over another the last one for the meter stays, and nothing but the two ends of
the range is ever set (`Rule.layAllOver_eq`). In a good config every bound says what it is
(`ExpectedBound.stated?`), so this is what a registration leaves, in whatever state it finds the
chain (`ChainConfig.settings_of_register`). -/

namespace MeterGate

/-! ## What bounds say -/

namespace ExpectedBound

/-- Whether a bound is for a meter: it is given for the type, and for how the name begins. -/
def IsFor (b : ExpectedBound) (id : MeterId) : Prop :=
  b.type = id.type ∧ id.nameStartsWith b.start = true

instance (b : ExpectedBound) (id : MeterId) : Decidable (b.IsFor id) :=
  inferInstanceAs (Decidable (_ ∧ _))

/-- The number that a bound says: the double nearest to its milliseconds in nanoseconds for timers,
    its value for distribution summaries. -/
def stated? (b : ExpectedBound) : Option Binary64 :=
  match b.type with
  | .timer => b.millis.map fun millis => .ofNat (millis.toNat * 1000000)
  | .distributionSummary => b.value
  | _ => none

variable {b : ExpectedBound}

/-- A good bound says its limit, so no default takes its place. -/
theorem stated?_of_fault? (good : b.fault? = none) : b.stated? = some b.limit := by
  obtain ⟨start, type, millis, value⟩ := b
  cases type with
  | timer =>
      cases millis with
      | none => cases good
      | some millis => rw [limit_of_timer rfl]; rfl
  | distributionSummary =>
      cases value with
      | none => cases good
      | some value => rfl
  | counter | gauge | longTaskTimer | other => cases good

theorem appliesTo_iff (good : b.fault? = none) (id : MeterId) : b.AppliesTo id ↔ b.IsFor id := by
  rw [AppliesTo, IsFor, meterType_of_fault? good, eq_comm]

end ExpectedBound

namespace Side

/-- The filter of a bound. -/
def filterOf : Side → ExpectedBound → StockFilter
  | maximum => ExpectedBound.maxFilter
  | minimum => ExpectedBound.minFilter

/-- The partial config that sets only this end of the range. -/
def setting : Side → Binary64 → DistributionConfig
  | maximum => .ofMaximum
  | minimum => .ofMinimum

/-- The filter of a good bound lays what the bound says over the settings of its meters. -/
theorem filterOf_eq (side : Side) {b : ExpectedBound} (good : b.fault? = none) :
    side.filterOf b = .expectedBound b.start b.type (side.setting b.limit) := by
  rw [← ExpectedBound.meterType_of_fault? good]
  cases side with
  | maximum => exact b.maxFilter_eq
  | minimum => exact b.minFilter_eq

end Side

namespace Rule

variable {side : Side} {rule : Rule} {rules : List Rule} {b : ExpectedBound}

/-! ## The last bound for a meter -/

/-- The bound of one side that a rule is, if it is one. -/
def asBound? : Side → Rule → Option ExpectedBound
  | .maximum, .maxExpected b => some b
  | .minimum, .minExpected b => some b
  | _, _ => none

/-- The last of the bounds of one side that is for a meter. -/
def lastFor? (side : Side) (rules : List Rule) (id : MeterId) : Option ExpectedBound :=
  ((rules.filterMap (asBound? side)).filter (·.IsFor id)).getLast?

/-- One end of the range: what the last bound for a meter says, or what was there if there is no
    bound. -/
def endOf (side : Side) (rules : List Rule) (id : MeterId) (inherited : Option Binary64) :
    Option Binary64 :=
  match lastFor? side rules id with
  | some b => b.stated?
  | none => inherited

theorem lastFor?_concat (side : Side) (rules : List Rule) (rule : Rule) (id : MeterId) :
    lastFor? side (rules ++ [rule]) id
      = ((rule.asBound? side).filter (·.IsFor id)).or (lastFor? side rules id) := by
  unfold lastFor?
  rw [List.filterMap_append, List.filter_append, List.getLast?_append]
  congr 1
  cases own : rule.asBound? side with
  | none => simp [own]
  | some b =>
      by_cases mine : b.IsFor id
      · simp [own, mine, Option.filter_some]
      · simp [own, mine, Option.filter_some]

/-- A rule that is laid over what others left sets the end of the range that its bound is for. -/
theorem endOf_concat (side : Side) (rules : List Rule) (rule : Rule) (id : MeterId)
    (inherited : Option Binary64) :
    endOf side (rules ++ [rule]) id inherited
      = endOf side [rule] id (endOf side rules id inherited) := by
  have alone := lastFor?_concat side [] rule id
  rw [List.nil_append, show lastFor? side [] id = none from rfl, Option.or_none] at alone
  unfold endOf
  rw [lastFor?_concat, alone]
  cases (rule.asBound? side).filter (·.IsFor id) with
  | none => rfl
  | some b => rfl

/-- All bounds among rules are good. -/
def BoundsGood (rules : List Rule) : Prop :=
  ∀ side, ∀ b ∈ rules.filterMap (asBound? side), b.fault? = none

theorem endOf_singleton {side : Side} (own : rule.asBound? side = some b) (good : b.fault? = none)
    (id : MeterId) (inherited : Option Binary64) :
    endOf side [rule] id inherited = if b.AppliesTo id then some b.limit else inherited := by
  have last : lastFor? side [rule] id = if b.IsFor id then some b else none := by
    by_cases mine : b.IsFor id
    · simp [lastFor?, own, mine]
    · simp [lastFor?, own, mine]
  unfold endOf
  rw [last]
  by_cases mine : b.IsFor id
  · rw [if_pos mine, if_pos ((ExpectedBound.appliesTo_iff good id).2 mine)]
    exact ExpectedBound.stated?_of_fault? good
  · rw [if_neg mine, if_neg fun applies => mine ((ExpectedBound.appliesTo_iff good id).1 applies)]

theorem layOver_eq (good : BoundsGood [rule]) (id : MeterId) (c : DistributionConfig) :
    rule.layOver id c = { c with
      maximum := endOf .maximum [rule] id c.maximum
      minimum := endOf .minimum [rule] id c.minimum } := by
  cases rule with
  | maxExpected b =>
      have own : asBound? .maximum (maxExpected b) = some b := rfl
      rw [endOf_singleton own (good .maximum b (by simp [own])), layOver]
      split <;> rfl
  | minExpected b =>
      have own : asBound? .minimum (minExpected b) = some b := rfl
      rw [endOf_singleton own (good .minimum b (by simp [own])), layOver]
      split <;> rfl
  | _ => rfl

/-- **Settings in closed form.** Rules that are laid over settings one after another set the two
    ends of the range to what the last bounds for the meter say, and leave the rest. -/
theorem layAllOver_eq (good : BoundsGood rules) (id : MeterId) (c : DistributionConfig) :
    layAllOver rules id c = { c with
      maximum := endOf .maximum rules id c.maximum
      minimum := endOf .minimum rules id c.minimum } := by
  induction rules using List.reverseRecOn with
  | nil => rfl
  | append_singleton rules rule ih =>
      have earlier : BoundsGood rules := fun side b hb =>
        good side b (by rw [List.filterMap_append]; exact List.mem_append_left _ hb)
      have last : BoundsGood [rule] := fun side b hb =>
        good side b (by rw [List.filterMap_append]; exact List.mem_append_right _ hb)
      -- the last rule is laid over what the earlier ones leave
      rw [layAllOver_append, ih earlier, endOf_concat, endOf_concat]
      exact layOver_eq last id _

/-! ## Active rules -/

end Rule

/-- The values that a limit on tag values holds. -/
def StockFilter.heldValues (s : Store) : StockFilter → List String
  | tagCap place _ _ => ((Store.valueCell place).get s).values
  | _ => []

namespace Rule

variable {rule : Rule} {rules : List Rule}

/-- The rules that a rule makes active, given its filter and what the limiters hold: itself, and
    the one behind a limit on tag values that holds more of them than it allows. -/
def active (s : Store) : Rule → StockFilter → List Rule
  | maximumAllowableTags name key max overflow, f =>
      maximumAllowableTags name key max overflow ::
        if max.toNat < (f.heldValues s).length then [overflow] else []
  | rule, _ => [rule]

/-- The active rules of a list, in order, given the filters of the rules. -/
def activeAll (s : Store) : List Rule → List StockFilter → List Rule
  | rule :: rest, f :: filters => rule.active s f ++ activeAll s rest filters
  | _, _ => []

theorem active_plain (plain : rule.kind.isLimiter = false) (s : Store) (f : StockFilter) :
    rule.active s f = [rule] := by
  cases rule with
  | maximumAllowableTags name key max overflow => cases plain
  | _ => rfl

/-- The filter of a rule lays the bounds of the rules that it makes active over settings. -/
theorem configure_build_active (flat : rule.Flat) (s₀ : Store) (id : MeterId)
    (c : DistributionConfig) (w : World Store) :
    (rule.build s₀).1.toFilter.configure id c w
      = .ok (layAllOver (rule.active w.state (rule.build s₀).1) id c) w := by
  cases limiter : rule.kind.isLimiter with
  | false =>
      rw [configure_build_plain limiter, active_plain limiter]
      rfl
  | true =>
      cases rule with
      | maximumAllowableMetrics max => rfl
      | maximumAllowableTags name key max overflow =>
          let held := ((maximumAllowableTags name key max overflow).build s₀).1.heldValues w.state
          refine (TagCap.configure_apply id c w).trans ?_
          by_cases exceeds : max.toNat < held.length
          · rw [active, if_pos exceeds, configure_build_plain flat]
            exact if_pos (decide_eq_true exceeds)
          · rw [active, if_neg exceeds]
            exact if_neg fun isOver => exceeds (of_decide_eq_true isOver)
      | _ => cases limiter

/-- **The configuration pass.** The bounds of the active rules are laid over settings in order,
    whatever the limiters hold. -/
theorem configure_buildAll_active (flat : ∀ rule ∈ rules, rule.Flat) (s₀ : Store) (id : MeterId)
    (c : DistributionConfig) (w : World Store) :
    Chain.configure (StockFilter.toChain (buildAll rules s₀).1) id c w
      = .ok (layAllOver (activeAll w.state rules (buildAll rules s₀).1) id c) w := by
  induction rules generalizing s₀ c with
  | nil => rfl
  | cons rule rest ih =>
      obtain ⟨here, there⟩ := List.forall_mem_cons.1 flat
      have left := configure_build_active here s₀ id c w
      show _ = EStateM.Result.ok (layAllOver (_ ++ _) id c) w
      rw [layAllOver_append]
      exact (Chain.configure_cons left).trans (ih there _ _)

/-! ## The bounds of active rules -/

theorem mem_boundsOf_of_asBound? {side : Side} {b : ExpectedBound}
    (own : rule.asBound? side = some b) : b ∈ rule.boundsOf side := by
  cases rule with
  | maxExpected b' =>
      cases side with
      | maximum => exact List.mem_singleton.2 (Option.some.inj own).symm
      | minimum => cases own
  | minExpected b' =>
      cases side with
      | maximum => cases own
      | minimum => exact List.mem_singleton.2 (Option.some.inj own).symm
  | _ => cases side <;> cases own

theorem mem_boundsOf_of_mem_active {side : Side} {b : ExpectedBound} {s : Store}
    {f : StockFilter} {r : Rule} (h : r ∈ rule.active s f) (own : r.asBound? side = some b) :
    b ∈ rule.boundsOf side := by
  cases rule with
  | maximumAllowableTags name key max overflow =>
      rcases List.mem_cons.1 h with rfl | h
      · exact mem_boundsOf_of_asBound? own
      · -- only the rule behind the limit can be left
        rw [List.mem_ite_nil_right, List.mem_singleton] at h
        obtain ⟨-, rfl⟩ := h
        rw [boundsOf_overflow]
        exact mem_boundsOf_of_asBound? own
  | _ =>
      obtain rfl := List.mem_singleton.1 h
      exact mem_boundsOf_of_asBound? own

theorem mem_boundsOf_of_mem_activeAll {side : Side} {b : ExpectedBound} {s : Store}
    {filters : List StockFilter} {r : Rule} (h : r ∈ activeAll s rules filters)
    (own : r.asBound? side = some b) : b ∈ rules.flatMap (boundsOf side) := by
  induction rules generalizing filters with
  | nil => cases filters <;> cases h
  | cons rule rest ih =>
      rw [List.flatMap_cons, List.mem_append]
      cases filters with
      | nil => cases h
      | cons f filters =>
          rcases List.mem_append.1 h with h | h
          · exact Or.inl (mem_boundsOf_of_mem_active h own)
          · exact Or.inr (ih h)

end Rule

namespace ChainConfig

theorem boundsGood_activeAll {c : ChainConfig} (valid : c.validate = .ok ()) (s : Store)
    (filters : List StockFilter) : Rule.BoundsGood (Rule.activeAll s c.rules filters) := by
  intro side b hb
  obtain ⟨r, hr, own⟩ := List.mem_filterMap.1 hb
  exact fault?_of_mem_bounds valid (Rule.mem_boundsOf_of_mem_activeAll hr own)

/-- **What a registration leaves of histogram settings.** A good config builds a chain. Each bound
    in it says what it is, and its filter lays just this over the settings of the meters that it is
    for. Whatever the limiters of the chain hold when a timer or a distribution summary is
    registered: each end of the range is then what the last of the active bounds for the mapped id
    says, and as it was given if there is none; the other settings are as they were given. A bound
    is active if it is a rule of the config, or the one behind a limit on tag values that holds more
    values than it allows once this id was asked for. -/
theorem settings_of_register (c : ChainConfig) (valid : c.validate = .ok ()) (w : World Store) :
    ∃ filters built, c.build w = .ok filters built ∧
      (∀ side, ∀ b ∈ c.rules.flatMap (Rule.boundsOf side), ∃ x, b.stated? = some x ∧
        side.filterOf b = .expectedBound b.start b.type (side.setting x)) ∧
      ∀ (now : World Store) (id : MeterId) (initial : DistributionConfig),
        id.type = .timer ∨ id.type = .distributionSummary →
        let chain := Chain.toFilter (StockFilter.toChain filters)
        ∃ mapped reply admitted,
          chain.map id now = .ok mapped now ∧ mapped.type = id.type ∧
          chain.accept mapped now = .ok reply admitted ∧
          let active := Rule.activeAll admitted.state c.rules filters
          chain.register id initial now = .ok
            { id := mapped
              reply := reply
              config := some { initial with
                maximum := Rule.endOf .maximum active mapped initial.maximum
                minimum := Rule.endOf .minimum active mapped initial.minimum } }
            (admitted.log (.ofVerdict mapped reply)) := by
  refine ⟨_, _, build_of_valid valid w, fun side b hb => ?_, fun now id initial used => ?_⟩
  · have good := fault?_of_mem_bounds valid hb
    exact ⟨b.limit, ExpectedBound.stated?_of_fault? good, side.filterOf_eq good⟩
  · intro chain
    let mapped := Rule.mapAll c.rules id
    have map : chain.map id now = .ok mapped now :=
      congrFun (Rule.map_buildAll c.rules w.state id) now
    have typed : mapped.type = id.type := Rule.type_mapAll c.rules id
    obtain ⟨reply, answered⟩ := (Rule.returns_buildAll c.rules w.state).accept mapped now
    obtain ⟨admitted, accept⟩ := Eval.ok_of_outcome answered
    have settings : chain.configure mapped initial admitted = _ :=
      Rule.configure_buildAll_active (flat_of_valid valid) w.state mapped initial admitted
    rw [Rule.layAllOver_eq (boundsGood_activeAll valid _ _)] at settings
    have used' : mapped.type.usesDistributionConfig = true :=
      (MeterType.usesDistributionConfig_iff _).2 (typed ▸ used)
    refine ⟨mapped, reply, admitted, map, typed, accept, Filter.register_of_ok map accept ?_⟩
    rw [Filter.configureIfUsed, if_pos used', map_eq_pure_bind, Eval.bind_apply, settings]
    rfl

/-- The second URI is one too many, and the maximum that follows the limit is laid over the settings
    of the very timer that has it. -/
theorem settings_of_register_one_too_many :
    let c : ChainConfig := { rules := [
      .maximumAllowableTags "http.requests" "uri" 1
        (.maxExpected { start := "http", type := .timer, millis := some 100 }),
      .minExpected { start := "http", type := .timer, millis := some 5 }] }
    let a : MeterId := ⟨"http.requests", .timer, [⟨"uri", "/a"⟩], none, none⟩
    let b : MeterId := ⟨"http.requests", .timer, [⟨"uri", "/b"⟩], none, none⟩
    let initial : DistributionConfig := { maximum := some .zero, bufferLength := some 4 }
    c.validate = .ok () ∧ b.type = .timer ∧ ∃ filters built,
      c.build (.fresh {}) = .ok filters built ∧
      let chain := Chain.toFilter (StockFilter.toChain filters)
      ((chain.register b initial).outcome (chain.after [.register a initial] built))
        = .ok ⟨b, .neutral, some { initial with
            maximum := some (.ofNat 100000000), minimum := some (.ofNat 5000000) }⟩ := by
  intro c a b initial
  have valid : c.validate = .ok () := by decide +kernel
  obtain ⟨filters, built, ran, -, settings⟩ := settings_of_register c valid (.fresh {})
  refine ⟨valid, rfl, filters, built, ran, ?_⟩
  -- the filters and the world are those of `build`, so what follows can be computed
  obtain ⟨rfl, rfl⟩ : filters = (Rule.buildAll c.rules {}).1
      ∧ built = World.log (.chainBuilt 2) (.fresh (Rule.buildAll c.rules {}).2) := by
    cases ran.symm.trans (build_of_valid valid (.fresh {}))
    exact ⟨rfl, rfl⟩
  intro chain
  let now := chain.after [.register a initial]
    (World.log (.chainBuilt 2) (.fresh (Rule.buildAll c.rules {}).2))
  obtain ⟨mapped, reply, admitted, map, -, accept, register⟩ :=
    settings now b initial (Or.inl rfl)
  cases map.symm.trans (show chain.map b now = .ok b now from rfl)
  have replied : Except.ok reply = (.ok .neutral : Except Panic Reply) :=
    (Eval.outcome_of_ok accept).symm.trans (by decide +kernel)
  cases replied
  rw [Eval.outcome_of_ok register, ← Eval.worldAfter_of_ok accept]
  decide +kernel

end ChainConfig

end MeterGate
