import MeterGate.Chain
import MeterGate.Filter.Bound
import Mathlib.Data.List.Induction

set_option autoImplicit false

/-! # Settings laid one over another

A partial config is eight settings, each of them set or not (`DistributionConfig.get`), and nothing
else (`eq_of_get`). One rule holds for all of them when a config is laid over another: what is set
above wins (`get_merge`). So the laws of `merge` are those of `Option.or`.

When configs are laid over a bottom one, from the bottom up, each setting is in the end that of the
last config that sets it (`get_mergeUp_eq_some_iff`). The configuration pass over bounds lays those
that are for the meter over the settings in this way (`configure_bounds`). -/

namespace MeterGate

namespace DistributionConfig

/-! ## Settings -/

/-- The settings of a histogram. -/
inductive Setting where
  | percentileHistogram
  | percentiles
  | percentilePrecision
  | objectives
  | minimum
  | maximum
  | expiry
  | bufferLength
deriving DecidableEq, Repr

/-- What a setting is set to. -/
abbrev Setting.Value : Setting → Type
  | percentileHistogram => Bool
  | percentiles | objectives => List Binary64
  | minimum | maximum => Binary64
  | percentilePrecision | bufferLength => UInt32
  | expiry => Duration

/-- What a config sets a setting to, if it does. -/
def get (c : DistributionConfig) : (s : Setting) → Option s.Value
  | .percentileHistogram => c.percentileHistogram
  | .percentiles => c.percentiles
  | .percentilePrecision => c.percentilePrecision
  | .objectives => c.objectives
  | .minimum => c.minimum
  | .maximum => c.maximum
  | .expiry => c.expiry
  | .bufferLength => c.bufferLength

variable {x y : DistributionConfig}

theorem eq_of_get (same : ∀ s, x.get s = y.get s) : x = y := by
  cases x
  cases y
  rw [mk.injEq]
  exact ⟨same .percentileHistogram, same .percentiles, same .percentilePrecision,
    same .objectives, same .minimum, same .maximum, same .expiry, same .bufferLength⟩

/-- What is set above wins, and the rest is inherited. -/
@[simp] theorem get_merge (x y : DistributionConfig) (s : Setting) :
    (x.merge y).get s = (x.get s).or (y.get s) := by
  cases s <;> rfl

/-! ## Laws -/

theorem merge_assoc (x y z : DistributionConfig) : (x.merge y).merge z = x.merge (y.merge z) :=
  eq_of_get fun s => by simp only [get_merge, Option.or_assoc]

theorem merge_self (x : DistributionConfig) : x.merge x = x :=
  eq_of_get fun s => by rw [get_merge, Option.or_self]

/-- What lies under a config that sets the same already adds nothing. -/
theorem merge_merge_self (x y : DistributionConfig) : (x.merge y).merge x = x.merge y := by
  refine eq_of_get fun s => ?_
  simp only [get_merge]
  cases x.get s with
  | none => simp
  | some v => rfl

/-! ## Configs from the bottom up -/

theorem mergeUp_concat (bottom : DistributionConfig) (above : List DistributionConfig)
    (c : DistributionConfig) : bottom.mergeUp (above ++ [c]) = c.merge (bottom.mergeUp above) :=
  mergeUp_append bottom above [c]

/-- Configs laid under one another from the top one down are the same laid over one another from the
    bottom one up. -/
theorem mergeDown_concat (top : DistributionConfig) (middle : List DistributionConfig)
    (bottom : DistributionConfig) :
    top.mergeDown (middle ++ [bottom]) = bottom.mergeUp (top :: middle).reverse := by
  induction middle generalizing top with
  | nil => rfl
  | cons c rest ih =>
      calc top.mergeDown (c :: rest ++ [bottom])
          = bottom.mergeUp ((top.merge c) :: rest).reverse := ih (top.merge c)
        _ = (top.merge c).merge (bottom.mergeUp rest.reverse) := by
            rw [List.reverse_cons, mergeUp_concat]
        _ = top.merge (c.merge (bottom.mergeUp rest.reverse)) := merge_assoc ..
        _ = bottom.mergeUp (top :: c :: rest).reverse := by
            rw [List.reverse_cons, mergeUp_concat, List.reverse_cons, mergeUp_concat]

/-- What the last config of a list that sets a setting sets it to. -/
def lastSet? (configs : List DistributionConfig) (s : Setting) : Option s.Value :=
  configs.reverse.findSome? (·.get s)

theorem lastSet?_concat (configs : List DistributionConfig) (c : DistributionConfig)
    (s : Setting) : lastSet? (configs ++ [c]) s = (c.get s).or (lastSet? configs s) := by
  rw [lastSet?, List.reverse_concat, List.findSome?_cons]
  cases c.get s <;> rfl

theorem lastSet?_eq_some_iff {configs : List DistributionConfig} {s : Setting} {v : s.Value} :
    lastSet? configs s = some v ↔
      ∃ before c after, configs = before ++ c :: after ∧ c.get s = some v ∧
        ∀ later ∈ after, later.get s = .none := by
  rw [lastSet?, List.findSome?_eq_some_iff]
  constructor
  · rintro ⟨after, c, before, split, sets, unset⟩
    refine ⟨before.reverse, c, after.reverse, ?_, sets, fun later h =>
      unset later (List.mem_reverse.1 h)⟩
    rw [← List.reverse_reverse configs, split]
    simp
  · rintro ⟨before, c, after, rfl, sets, unset⟩
    exact ⟨after.reverse, c, before.reverse, by simp, sets, fun later h =>
      unset later (List.mem_reverse.1 h)⟩

theorem lastSet?_eq_none_iff {configs : List DistributionConfig} {s : Setting} :
    lastSet? configs s = .none ↔ ∀ c ∈ configs, c.get s = .none := by
  simp only [lastSet?, List.findSome?_eq_none_iff, List.mem_reverse]

theorem get_mergeUp (bottom : DistributionConfig) (above : List DistributionConfig)
    (s : Setting) : (bottom.mergeUp above).get s = (lastSet? above s).or (bottom.get s) := by
  induction above using List.reverseRecOn with
  | nil => rfl
  | append_singleton above c ih =>
      rw [mergeUp_concat, get_merge, lastSet?_concat, Option.or_assoc, ih]

/-- A setting is that of the last config that sets it, or the bottom one's if none does. -/
theorem get_mergeUp_eq_some_iff (bottom : DistributionConfig) (above : List DistributionConfig)
    (s : Setting) (v : s.Value) :
    (bottom.mergeUp above).get s = some v ↔
      (∃ before c after, above = before ++ c :: after ∧ c.get s = some v ∧
        ∀ later ∈ after, later.get s = .none) ∨
      (∀ c ∈ above, c.get s = .none) ∧ bottom.get s = some v := by
  rw [get_mergeUp, Option.or_eq_some_iff, lastSet?_eq_some_iff, lastSet?_eq_none_iff]

/-! ## Bounds in a chain -/

/-- The bounds of a list that are for a meter: given for its type, and for how its name begins. -/
def boundsFor (id : MeterId) (bounds : List (String × MeterType × DistributionConfig)) :
    List DistributionConfig :=
  bounds.filterMap fun (start, type, bound) =>
    if id.type = type ∧ id.nameStartsWith start then some bound else .none

theorem boundsFor_cons (id : MeterId) (start : String) (type : MeterType)
    (bound : DistributionConfig) (rest : List (String × MeterType × DistributionConfig)) :
    boundsFor id ((start, type, bound) :: rest)
      = if id.type = type ∧ id.nameStartsWith start then bound :: boundsFor id rest
        else boundsFor id rest := by
  by_cases mine : id.type = type ∧ id.nameStartsWith start <;> simp [boundsFor, mine]

/-- The filters of bounds lay those that are for the meter over its settings, in order. -/
theorem configure_bounds {σ : Type} (bounds : List (String × MeterType × DistributionConfig))
    (id : MeterId) (config : DistributionConfig) :
    Chain.configure (bounds.map fun (start, type, bound) => .expectedBound start type bound) id
        config = (pure (config.mergeUp (boundsFor id bounds)) : Eval σ DistributionConfig) := by
  induction bounds generalizing config with
  | nil => rfl
  | cons b rest ih =>
      obtain ⟨start, type, bound⟩ := b
      show pure _ >>= _ = _
      rw [pure_bind, boundsFor_cons]
      split
      · exact ih (bound.merge config)
      · exact ih config

/-! ## All of it -/

/-- **Laying configs over one another.** Laying over is associative, the config with nothing set is
    neutral on both sides, and a config adds nothing over itself or under what was laid over it
    already; so a list of configs may be laid from the top down or from the bottom up. Configs are
    the same if all their settings are, doubles among them by their bits. When configs are laid over
    a bottom one in order, each setting is that of the last one that sets it, to whatever value, and
    the bottom one's if none does. The configuration pass over bounds lays those that are for the
    meter over its settings like this. -/
theorem overlay_laws :
    (∀ x y z : DistributionConfig, (x.merge y).merge z = x.merge (y.merge z)) ∧
    (∀ x : DistributionConfig, none.merge x = x ∧ x.merge none = x ∧ x.merge x = x) ∧
    (∀ x y : DistributionConfig, (x.merge y).merge x = x.merge y) ∧
    (∀ (top : DistributionConfig) (middle : List DistributionConfig) (bottom : DistributionConfig),
      top.mergeDown (middle ++ [bottom]) = bottom.mergeUp (top :: middle).reverse) ∧
    (∀ x y : DistributionConfig, x = y ↔ ∀ s, x.get s = y.get s) ∧
    (∀ a b : Binary64, a = b ↔ a.bits = b.bits) ∧
    (∀ (bottom : DistributionConfig) (above : List DistributionConfig) (s : Setting) (v : s.Value),
      (bottom.mergeUp above).get s = some v ↔
        (∃ before c after, above = before ++ c :: after ∧ c.get s = some v ∧
          ∀ later ∈ after, later.get s = .none) ∨
        (∀ c ∈ above, c.get s = .none) ∧ bottom.get s = some v) ∧
    ∀ (σ : Type) (bounds : List (String × MeterType × DistributionConfig)) (id : MeterId)
      (config : DistributionConfig),
      Chain.configure (bounds.map fun (start, type, bound) => .expectedBound start type bound) id
          config
        = (pure (config.mergeUp (boundsFor id bounds)) : Eval σ DistributionConfig) := by
  refine ⟨merge_assoc, fun x => ⟨none_merge x, merge_none x, merge_self x⟩, merge_merge_self,
    mergeDown_concat, fun x y => ⟨?_, eq_of_get⟩,
    fun a b => ⟨congrArg Binary64.bits, Binary64.eq_of_bits_eq⟩, get_mergeUp_eq_some_iff,
    fun σ => configure_bounds⟩
  rintro rfl s
  rfl

/-- An empty list and a NaN are settings like others: they hide what lies below, with the sign that
    the NaN was given, and what does not set them lets them through. -/
theorem overlay_laws_emptied :
    let bottom : DistributionConfig :=
      { objectives := some [.ofNat 1], minimum := some .zero, bufferLength := some 3 }
    let emptied : DistributionConfig :=
      { objectives := some [], minimum := some (.quietNan true) }
    let other : DistributionConfig := { maximum := some (.ofNat 5) }
    let result := bottom.mergeUp [emptied, other]
    result.get .objectives = some [] ∧ result.get .minimum = some (.quietNan true) ∧
      result.get .maximum = some (.ofNat 5) ∧ result.get .bufferLength = some 3 ∧
      result.get .expiry = .none ∧ Binary64.quietNan true ≠ .nan := by
  intro bottom emptied other result
  obtain ⟨-, -, -, -, -, bits, settings, -⟩ := overlay_laws
  have setting := settings bottom [emptied, other]
  refine ⟨?_, ?_, ?_, ?_, rfl, fun same => ?_⟩
  · exact (setting .objectives []).2
      (.inl ⟨[], emptied, [other], rfl, rfl, List.forall_mem_singleton.2 rfl⟩)
  · exact (setting .minimum (.quietNan true)).2
      (.inl ⟨[], emptied, [other], rfl, rfl, List.forall_mem_singleton.2 rfl⟩)
  · exact (setting .maximum (.ofNat 5)).2
      (.inl ⟨[emptied], other, [], rfl, rfl, List.forall_mem_nil _⟩)
  · exact (setting .bufferLength 3).2
      (.inr ⟨List.forall_mem_cons.2 ⟨rfl, List.forall_mem_singleton.2 rfl⟩, rfl⟩)
  · exact absurd ((bits _ _).1 same) (by decide +kernel)

end DistributionConfig

end MeterGate
