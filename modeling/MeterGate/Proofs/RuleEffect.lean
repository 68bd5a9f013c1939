import MeterGate.Proofs.Course
import MeterGate.Config.Build

set_option autoImplicit false

/-! # What the filter of a rule does

A rule that maps ids does so by a plain function (`Rule.mapId`), whatever the filters remember, and
so does a list of rules (`Rule.map_buildAll`). A bound is one partial config for one type of meter
(`Rule.layOver`). A rule that is no limiter answers by itself and remembers nothing. -/

namespace MeterGate

namespace Rule

/-! ## Mapping -/

/-- The id as a rule maps it. -/
def mapId : Rule → MeterId → MeterId
  | .commonTags tags, id => id.addTags tags
  | .renameTag start fromKey toKey, id => id.renameTag start fromKey toKey
  | .ignoreTags keys, id => id.dropTags keys
  | .replaceTagValues key replacement exceptions, id =>
      id.mapTags (List.map fun t =>
        if t.key ≠ key ∨ t.value ∈ exceptions then t else { t with value := replacement })
  | _, id => id

/-- The id as a list of rules maps it, in order. -/
def mapAll (rules : List Rule) (id : MeterId) : MeterId :=
  rules.foldl (fun id rule => rule.mapId id) id

theorem type_mapId (rule : Rule) (id : MeterId) : (rule.mapId id).type = id.type := by
  cases rule with
  | renameTag start fromKey toKey => exact MeterId.type_renameTag start fromKey toKey id
  | _ => rfl

theorem map_maxFilter (b : ExpectedBound) (id : MeterId) :
    b.maxFilter.toFilter.map id = pure id := by
  unfold ExpectedBound.maxFilter
  split <;> rfl

theorem map_minFilter (b : ExpectedBound) (id : MeterId) :
    b.minFilter.toFilter.map id = pure id := by
  unfold ExpectedBound.minFilter
  split <;> rfl

theorem map_build (rule : Rule) (s : Store) (id : MeterId) :
    (rule.build s).1.toFilter.map id = pure (rule.mapId id) := by
  cases rule with
  | replaceTagValues key replacement exceptions =>
      show Eval.ofClosure (MeterId.replaceTagValues key _ exceptions id) = _
      rw [MeterId.replaceTagValues, Tag.replaceValues_const]
      rfl
  | maxExpected b => exact map_maxFilter b id
  | minExpected b => exact map_minFilter b id
  | _ => rfl

theorem map_buildAll (rules : List Rule) (s : Store) (id : MeterId) :
    Chain.map (StockFilter.toChain (buildAll rules s).1) id = pure (mapAll rules id) := by
  induction rules generalizing s id with
  | nil => rfl
  | cons rule rest ih =>
      show (rule.build s).1.toFilter.map id >>= _ = _
      rw [map_build, pure_bind, ih]
      rfl

theorem type_mapAll (rules : List Rule) (id : MeterId) : (mapAll rules id).type = id.type := by
  induction rules generalizing id with
  | nil => rfl
  | cons rule rest ih => exact (ih (rule.mapId id)).trans (type_mapId rule id)

end Rule

/-! ## Bounds -/

namespace ExpectedBound

/-- The meters whose histograms have a bound of this kind. -/
def meterType (b : ExpectedBound) : MeterType :=
  if b.type = .timer then .timer else .distributionSummary

/-- The bound itself: nanoseconds for timers. -/
def limit (b : ExpectedBound) : Binary64 :=
  if b.type = .timer then b.duration.toBound else b.value.getD .zero

/-- Whether a bound is for the histogram of a meter. -/
def AppliesTo (b : ExpectedBound) (id : MeterId) : Prop :=
  id.type = b.meterType ∧ id.nameStartsWith b.start = true

instance (b : ExpectedBound) (id : MeterId) : Decidable (b.AppliesTo id) :=
  inferInstanceAs (Decidable (_ ∧ _))

theorem maxFilter_eq (b : ExpectedBound) :
    b.maxFilter = .expectedBound b.start b.meterType (.ofMaximum b.limit) := by
  unfold maxFilter meterType limit
  split
  · next h => rw [if_pos h, if_pos h]; rfl
  · next h => rw [if_neg h, if_neg h]; rfl

theorem minFilter_eq (b : ExpectedBound) :
    b.minFilter = .expectedBound b.start b.meterType (.ofMinimum b.limit) := by
  unfold minFilter meterType limit
  split
  · next h => rw [if_pos h, if_pos h]; rfl
  · next h => rw [if_neg h, if_neg h]; rfl

end ExpectedBound

namespace Rule

/-- The histogram settings with a rule's bound laid over them, if it is for the meter. -/
def layOver : Rule → MeterId → DistributionConfig → DistributionConfig
  | .maxExpected b, id, c => if b.AppliesTo id then { c with maximum := some b.limit } else c
  | .minExpected b, id, c => if b.AppliesTo id then { c with minimum := some b.limit } else c
  | _, _, c => c

theorem ofMaximum_merge (x : Binary64) (c : DistributionConfig) :
    (DistributionConfig.ofMaximum x).merge c = { c with maximum := some x } := by
  simp [DistributionConfig.ofMaximum, DistributionConfig.merge]

theorem ofMinimum_merge (x : Binary64) (c : DistributionConfig) :
    (DistributionConfig.ofMinimum x).merge c = { c with minimum := some x } := by
  simp [DistributionConfig.ofMinimum, DistributionConfig.merge]

/-! ## Rules that remember nothing -/

/-- What a rule that is no limiter answers about an id. -/
def plainAnswer : Rule → MeterId → Reply
  | .accept, _ => .accept
  | .deny, _ => .deny
  | .acceptNameStartsWith start, id => if id.nameStartsWith start then .accept else .neutral
  | .denyNameStartsWith start, id => if id.nameStartsWith start then .deny else .neutral
  | .denyUnlessNameStartsWith start, id => if id.nameStartsWith start then .neutral else .deny
  | _, _ => .neutral

theorem accept_build_plain {rule : Rule} (plain : rule.kind.isLimiter = false) (s : Store)
    (id : MeterId) : (rule.build s).1.toFilter.accept id = pure (rule.plainAnswer id) := by
  cases rule with
  | maximumAllowableMetrics max => cases plain
  | maximumAllowableTags name key max overflow => cases plain
  | maxExpected b =>
      show b.maxFilter.toFilter.accept id = _
      rw [ExpectedBound.maxFilter_eq]
      rfl
  | minExpected b =>
      show b.minFilter.toFilter.accept id = _
      rw [ExpectedBound.minFilter_eq]
      rfl
  | _ => rfl

theorem configure_build_plain {rule : Rule} (plain : rule.kind.isLimiter = false) (s : Store)
    (id : MeterId) (c : DistributionConfig) :
    (rule.build s).1.toFilter.configure id c = pure (rule.layOver id c) := by
  cases rule with
  | maximumAllowableMetrics max => cases plain
  | maximumAllowableTags name key max overflow => cases plain
  | maxExpected b =>
      show b.maxFilter.toFilter.configure id c = _
      rw [ExpectedBound.maxFilter_eq, layOver, ← ofMaximum_merge]
      rfl
  | minExpected b =>
      show b.minFilter.toFilter.configure id c = _
      rw [ExpectedBound.minFilter_eq, layOver, ← ofMinimum_merge]
      rfl
  | _ => rfl

end Rule

end MeterGate
