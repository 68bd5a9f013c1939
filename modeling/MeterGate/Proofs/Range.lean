import MeterGate.Proofs.History

set_option autoImplicit false

/-! # Histogram ranges of built chains

Of the bounds of one side that are laid over empty histogram settings, the last one that is for the
meter stays (`Rule.bound?_layAllOver`). When the bounds for a meter type share their prefix, these
are the last bounds in force (`ChainConfig.bound?_inForceAll`), while the check compared the last
bounds of the whole list. The two differ as long as the limit before an overflow bound is not
exceeded, and so a good config can leave a maximum below a minimum. -/

namespace MeterGate

namespace DistributionConfig

/-- The setting of one end of the range. -/
def bound? : Side → DistributionConfig → Option Binary64
  | .maximum, c => c.maximum
  | .minimum, c => c.minimum

/-- Whether both ends of the range are set, with the maximum below the minimum. -/
def isInverted (c : DistributionConfig) : Bool :=
  match c.bound? .maximum, c.bound? .minimum with
  | some hi, some lo => Binary64.lt hi lo
  | _, _ => false

theorem isInverted_iff (c : DistributionConfig) : c.isInverted = true ↔
    ∃ hi lo, c.bound? .maximum = some hi ∧ c.bound? .minimum = some lo
      ∧ Binary64.lt hi lo = true := by
  unfold isInverted
  cases c.bound? .maximum <;> cases c.bound? .minimum <;> simp

end DistributionConfig

/-- Whether a meter was left with an inverted range. -/
def Registration.hasInvertedRange (r : Registration) : Bool :=
  r.config.any DistributionConfig.isInverted

namespace Rule

/-! ## The last bound stays -/

theorem bound?_layOver (side : Side) {rule : Rule} (h : rule.kind ≠ .maximumAllowableTags)
    (id : MeterId) (c : DistributionConfig) :
    (rule.layOver id c).bound? side
      = ((((rule.boundsOf side).filter (·.AppliesTo id)).getLast?).map ExpectedBound.limit).or
          (c.bound? side) := by
  cases rule with
  | maximumAllowableTags name key max overflow => exact absurd rfl h
  | maxExpected b =>
      cases side <;> by_cases applies : b.AppliesTo id <;>
        simp [layOver, boundsOf, maxima, minima, applies, DistributionConfig.bound?]
  | minExpected b =>
      cases side <;> by_cases applies : b.AppliesTo id <;>
        simp [layOver, boundsOf, maxima, minima, applies, DistributionConfig.bound?]
  | _ => cases side <;> rfl

/-- The last bound for a meter among those of rules is the one that stays. -/
theorem bound?_layAllOver (side : Side) {rules : List Rule}
    (h : ∀ rule ∈ rules, rule.kind ≠ .maximumAllowableTags) (id : MeterId)
    (c : DistributionConfig) :
    (layAllOver rules id c).bound? side
      = ((((rules.flatMap (boundsOf side)).filter (·.AppliesTo id)).getLast?).map
          ExpectedBound.limit).or (c.bound? side) := by
  induction rules using List.reverseRecOn with
  | nil => rfl
  | append_singleton rules rule ih =>
      -- the bound of the last rule wins over the earlier ones, and is the last of the list
      have earlier := ih fun r hr => h r (List.mem_append_left _ hr)
      have latest := bound?_layOver side (h rule (by simp)) id (layAllOver rules id c)
      rw [layAllOver_append]
      refine latest.trans ?_
      rw [earlier, List.flatMap_append, List.flatMap_singleton, List.filter_append,
        List.getLast?_append, Option.map_or, Option.or_assoc]

/-! ## Bounds in force -/

theorem kind_of_mem_inForceAll {rules : List Rule} (flat : ∀ rule ∈ rules, rule.Flat)
    (ids : List MeterId) : ∀ rule ∈ inForceAll rules ids, rule.kind ≠ .maximumAllowableTags := by
  induction rules generalizing ids with
  | nil => simp [inForceAll]
  | cons rule rest ih =>
      have flatRest : ∀ r ∈ rest, r.Flat := fun r hr => flat r (List.mem_cons_of_mem _ hr)
      intro r hr
      rcases List.mem_append.1 hr with hr | hr
      · have here := flat rule List.mem_cons_self
        cases rule with
        | maximumAllowableTags name key max overflow =>
            simp only [inForce] at hr
            split at hr
            · -- what follows a limit is no limiter, so not another limit either
              obtain rfl := List.mem_singleton.1 hr
              intro limiter
              simp [Flat, limiter, RuleKind.isLimiter] at here
            · exact absurd hr List.not_mem_nil
        | _ =>
            obtain rfl := List.mem_singleton.1 hr
            simp [kind]
      · exact ih flatRest _ r hr

theorem boundsOf_inForce_sublist (side : Side) (rule : Rule) (ids : List MeterId) :
    ((rule.inForce ids).flatMap (boundsOf side)).Sublist (rule.boundsOf side) := by
  cases rule with
  | maximumAllowableTags name key max overflow =>
      rw [boundsOf_overflow, inForce]
      split
      · simp
      · simp
  | _ => simp [inForce]

/-- The bounds in force are some of the bounds that there are, in the same order. -/
theorem boundsOf_inForceAll_sublist (side : Side) (rules : List Rule) (ids : List MeterId) :
    ((inForceAll rules ids).flatMap (boundsOf side)).Sublist (rules.flatMap (boundsOf side)) := by
  induction rules generalizing ids with
  | nil => exact List.Sublist.refl _
  | cons rule rest ih =>
      rw [inForceAll, List.flatMap_append, List.flatMap_cons]
      exact (boundsOf_inForce_sublist side rule ids).append (ih _)

end Rule

namespace ChainConfig

variable {c : ChainConfig} {start : String} {type : MeterType}

/-- If the bounds of a type share their prefix, all of them are for the same meters. -/
theorem filter_appliesTo (valid : c.validate = .ok ())
    (shared : c.SharesPrefix type start)
    (side : Side) {id : MeterId} (typed : id.type = type) (ids : List MeterId) :
    ((Rule.inForceAll c.rules ids).flatMap (Rule.boundsOf side)).filter (·.AppliesTo id)
      = if id.nameStartsWith start then
          ((Rule.inForceAll c.rules ids).flatMap (Rule.boundsOf side)).filter (·.type = type)
        else [] := by
  have applies : ∀ b ∈ (Rule.inForceAll c.rules ids).flatMap (Rule.boundsOf side),
      b.AppliesTo id ↔ b.type = type ∧ id.nameStartsWith start = true := by
    intro b h
    have mem := (Rule.boundsOf_inForceAll_sublist side c.rules ids).subset h
    have meterType := ExpectedBound.meterType_of_fault? (fault?_of_mem_bounds valid mem)
    rw [ExpectedBound.AppliesTo, meterType, typed, eq_comm]
    refine and_congr_right fun same => ?_
    rw [shared side b mem same]
  split
  · next starts =>
      refine List.filter_congr fun b h => ?_
      simp [applies b h, starts]
  · next other =>
      refine List.filter_eq_nil_iff.2 fun b h => ?_
      simp [applies b h, other]

/-- What the chain leaves of one end of an empty range: the limit of the last bound in force. -/
theorem bound?_inForceAll (valid : c.validate = .ok ())
    (shared : c.SharesPrefix type start)
    (side : Side) {id : MeterId} (typed : id.type = type) (ids : List MeterId) :
    (Rule.layAllOver (Rule.inForceAll c.rules ids) id .none).bound? side
      = if id.nameStartsWith start then
          (Rule.lastBound? side type (Rule.inForceAll c.rules ids)).map ExpectedBound.limit
        else none := by
  have plain := Rule.kind_of_mem_inForceAll (flat_of_valid valid) ids
  have unset : DistributionConfig.bound? side .none = none := by cases side <;> rfl
  rw [Rule.bound?_layAllOver side plain, filter_appliesTo valid shared side typed, unset,
    Option.or_none]
  split
  · rfl
  · rfl

theorem usesDistributionConfig_of_lastBound? (valid : c.validate = .ok ()) {side : Side}
    {ids : List MeterId} {b : ExpectedBound}
    (h : Rule.lastBound? side type (Rule.inForceAll c.rules ids) = some b) :
    type.usesDistributionConfig = true := by
  obtain ⟨mem, typed⟩ := Rule.mem_of_lastBound? h
  have there := (Rule.boundsOf_inForceAll_sublist side c.rules ids).subset mem
  rw [← typed]
  exact ExpectedBound.usesDistributionConfig_of_fault? (fault?_of_mem_bounds valid there)

theorem hasInvertedRange_outcome (valid : c.validate = .ok ())
    (shared : c.SharesPrefix type start)
    {id : MeterId} (typed : id.type = type) (past : List MeterId) :
    (Rule.outcome c.rules past id .none).hasInvertedRange = true ↔
      id.nameStartsWith start = true ∧ ∃ hi lo,
        Rule.lastBound? .maximum type (Rule.inForceAll c.rules (past ++ [id])) = some hi ∧
        Rule.lastBound? .minimum type (Rule.inForceAll c.rules (past ++ [id])) = some lo ∧
        Binary64.lt hi.limit lo.limit = true := by
  have ends := fun side => bound?_inForceAll valid shared side typed (past ++ [id])
  by_cases used : id.type.usesDistributionConfig = true
  · simp only [Registration.hasInvertedRange, Rule.outcome, used, if_true, Option.any_some,
      DistributionConfig.isInverted_iff, ends]
    by_cases starts : id.nameStartsWith start = true
    · simp only [starts, if_true, true_and, Option.map_eq_some_iff]
      constructor
      · rintro ⟨_, _, ⟨hi, last_hi, rfl⟩, ⟨lo, last_lo, rfl⟩, lower⟩
        exact ⟨hi, lo, last_hi, last_lo, lower⟩
      · rintro ⟨hi, lo, last_hi, last_lo, lower⟩
        exact ⟨_, _, ⟨hi, last_hi, rfl⟩, ⟨lo, last_lo, rfl⟩, lower⟩
    · simp [starts]
  · have unused : (Rule.outcome c.rules past id .none).hasInvertedRange = false := by
      simp [Registration.hasInvertedRange, Rule.outcome, used]
    rw [unused]
    refine ⟨fun h => absurd h (by decide), ?_⟩
    rintro ⟨-, hi, lo, last_hi, -⟩
    rw [typed] at used
    exact absurd (usesDistributionConfig_of_lastBound? valid last_hi) used

/-- An inverted range comes from a bound that the check passed over for a later one that is not in
    force, or from milliseconds that are too many to be told apart as doubles. -/
theorem unchecked_of_hasInvertedRange (valid : c.validate = .ok ())
    (shared : c.SharesPrefix type start)
    {id : MeterId} (typed : id.type = type) {past : List MeterId}
    (inverted : (Rule.outcome c.rules past id .none).hasInvertedRange = true) :
    let inForce := Rule.inForceAll c.rules (past ++ [id])
    Rule.lastBound? .maximum type inForce ≠ Rule.lastBound? .maximum type c.rules ∨
    Rule.lastBound? .minimum type inForce ≠ Rule.lastBound? .minimum type c.rules ∨
    (type = .timer ∧ ∃ lo, Rule.lastBound? .minimum type inForce = some lo
      ∧ 2 ^ 53 < (lo.millis.getD 0).toNat) := by
  intro inForce
  obtain ⟨-, hi, lo, last_hi, last_lo, lower⟩ :=
    (hasInvertedRange_outcome valid shared typed past).1 inverted
  by_cases same_hi : Rule.lastBound? .maximum type inForce = Rule.lastBound? .maximum type c.rules
  · by_cases same_lo :
        Rule.lastBound? .minimum type inForce = Rule.lastBound? .minimum type c.rules
    · -- the check compared these two, so only their magnitudes can be the right way round
      have passed := not_lt_of_valid valid shared (same_hi ▸ last_hi) (same_lo ▸ last_lo)
      have typed_hi := (Rule.mem_of_lastBound? last_hi).2
      have typed_lo := (Rule.mem_of_lastBound? last_lo).2
      obtain ⟨timer, coarse⟩ :=
        ExpectedBound.coarse_of_lt (typed_hi.trans typed_lo.symm) lower passed
      exact Or.inr (Or.inr ⟨typed_lo.symm.trans timer, lo, last_lo, coarse⟩)
    · exact Or.inr (Or.inl same_lo)
  · exact Or.inl same_hi

/-- **When a range is inverted.** In a good config the bounds for a meter type share their prefix.
    Whatever is registered with its chain, a meter of the type that comes with empty histogram
    settings is left with its maximum below its minimum exactly if its mapped name has the prefix
    and the last maximum in force is below the last minimum in force. This does not happen while
    these are the last ones in the list of rules, which the check compared, unless the bounds are
    for timers and so large that doubles cannot tell their milliseconds apart. -/
theorem hasInvertedRange_iff_of_valid (c : ChainConfig) (valid : c.validate = .ok ())
    (type : MeterType) (start : String)
    (shared : c.SharesPrefix type start)
    (w : World Store) (calls : List (MeterId × DistributionConfig)) :
    ∃ filters built, c.build w = .ok filters built ∧
      ∀ n id, calls[n]? = some (id, .none) → id.type = type →
        let inForce := Rule.inForceAll c.rules ((Rule.mappedIds c.rules calls).take (n + 1))
        ∃ r : Registration,
          ((Chain.toFilter (StockFilter.toChain filters)).course
            (calls.map Rule.toRequest) built)[n]?.map Prod.fst = some (.registration r) ∧
          r.id = Rule.mapAll c.rules id ∧
          (r.hasInvertedRange = true ↔
            r.id.nameStartsWith start = true ∧ ∃ hi lo,
              Rule.lastBound? .maximum type inForce = some hi ∧
              Rule.lastBound? .minimum type inForce = some lo ∧
              Binary64.lt hi.limit lo.limit = true) ∧
          (r.hasInvertedRange = true →
            Rule.lastBound? .maximum type inForce ≠ Rule.lastBound? .maximum type c.rules ∨
            Rule.lastBound? .minimum type inForce ≠ Rule.lastBound? .minimum type c.rules ∨
            (type = .timer ∧ ∃ lo, Rule.lastBound? .minimum type inForce = some lo ∧
              2 ^ 53 < (lo.millis.getD 0).toNat)) := by
  refine ⟨_, _, build_of_valid valid w, fun n id called typed => ?_⟩
  have history : (Rule.mappedIds c.rules calls).take (n + 1)
      = Rule.mappedIds c.rules (calls.take n) ++ [Rule.mapAll c.rules id] := by
    simp [Rule.mappedIds, List.take_add_one, called]
  have mapped : (Rule.mapAll c.rules id).type = type := (Rule.type_mapAll c.rules id).trans typed
  rw [history]
  refine ⟨Rule.outcome c.rules (Rule.mappedIds c.rules (calls.take n)) (Rule.mapAll c.rules id)
    .none, ?_, rfl, hasInvertedRange_outcome valid shared mapped _,
    unchecked_of_hasInvertedRange valid shared mapped⟩
  refine (Rule.course_chain (flat_of_valid valid) w.state rfl calls n).trans ?_
  rw [called, Option.map_some]

/-- Once the limit is exceeded, the overflow maximum is in force, and the range is in order. -/
theorem hasInvertedRange_iff_of_valid_exceeded :
    let bound (millis : UInt64) : ExpectedBound := ⟨"http", .timer, some millis, none⟩
    let c : ChainConfig :=
      { rules := [.maxExpected (bound 10),
          .maximumAllowableTags "http.requests" "uri" 0 (.maxExpected (bound 100)),
          .minExpected (bound 50)] }
    let id : MeterId := ⟨"http.requests", .timer, [⟨"uri", "/a"⟩], none, none⟩
    c.validate = .ok () ∧
    c.SharesPrefix .timer "http" ∧ ∃ filters built r, c.build (.fresh {}) = .ok filters built ∧
      ((Chain.toFilter (StockFilter.toChain filters)).course
        [.register id .none] built)[0]?.map Prod.fst = some (.registration r) ∧
      r.hasInvertedRange = false := by
  intro bound c id
  have valid : c.validate = .ok () := by decide +kernel
  have shared : c.SharesPrefix .timer "http" := by
    intro side
    cases side <;> decide
  obtain ⟨filters, built, ran, registered⟩ :=
    hasInvertedRange_iff_of_valid c valid .timer "http" shared (.fresh {}) [(id, .none)]
  obtain ⟨r, response, -, inverted_iff, -⟩ := registered 0 id rfl rfl
  refine ⟨valid, shared, filters, built, r, ran, response, ?_⟩
  rw [Bool.eq_false_iff, ne_eq, inverted_iff]
  rintro ⟨-, hi, lo, last_hi, last_lo, lower⟩
  obtain rfl : bound 100 = hi := Option.some.inj (Eq.trans (by decide +kernel) last_hi)
  obtain rfl : bound 50 = lo := Option.some.inj (Eq.trans (by decide +kernel) last_lo)
  exact absurd lower (by decide +kernel)

/-- Before the limit is exceeded, the maximum at the front is in force, which the check passed over
    for the overflow maximum: the range is inverted. -/
theorem inverted_before_overflow :
    let bound (millis : UInt64) : ExpectedBound := ⟨"http", .timer, some millis, none⟩
    let c : ChainConfig :=
      { rules := [.maxExpected (bound 10),
          .maximumAllowableTags "http.requests" "uri" 10 (.maxExpected (bound 100)),
          .minExpected (bound 50)] }
    let id : MeterId := ⟨"http.requests", .timer, [⟨"uri", "/a"⟩], none, none⟩
    c.validate = .ok () ∧
    c.SharesPrefix .timer "http" ∧ ∃ filters built r, c.build (.fresh {}) = .ok filters built ∧
      ((Chain.toFilter (StockFilter.toChain filters)).course
        [.register id .none] built)[0]?.map Prod.fst = some (.registration r) ∧
      r.hasInvertedRange = true := by
  intro bound c id
  have valid : c.validate = .ok () := by decide +kernel
  have shared : c.SharesPrefix .timer "http" := by
    intro side
    cases side <;> decide
  refine ⟨valid, shared, _, _, Rule.outcome c.rules [] id .none, build_of_valid valid _, ?_,
    by decide +kernel⟩
  exact Rule.course_chain (flat_of_valid valid) {} rfl [(id, .none)] 0

end ChainConfig

end MeterGate
