import MeterGate.Proofs.NearestNatural
import MeterGate.Proofs.WellFormed
import Mathlib.Data.List.Nodup

set_option autoImplicit false

/-! # Which configs are good

A config passes its check exactly if each of its rules is well formed and no maximum is below a
minimum for the same meters (`ChainConfig.RangesInOrder`), as long as no meters have two bounds of
one side (`ChainConfig.validate_iff_wellFormed`). Otherwise the first rule that is not well formed
is reported, and ranges are looked at only if there is none. -/

namespace MeterGate

/-! ## The first faulty rule -/

namespace ChainConfig

/-- The fault of the first faulty rule in a list whose indices begin at `n`. -/
def firstFault? (rules : List Rule) (n : Nat) : Option ConfigFault :=
  (rules.zipIdx n).findSome? fun (rule, index) => rule.fault?.map (.rule index rule.kind)

/-- Either all rules are well formed, or the first one that is not is found, with its fault. -/
theorem firstFault?_cases (rules : List Rule) (n : Nat) :
    ((∀ rule ∈ rules, rule.WellFormed) ∧ firstFault? rules n = none) ∨
    ∃ i rule fault, rules[i]? = some rule ∧ rule.fault? = some fault ∧
      (∀ earlier ∈ rules.take i, earlier.WellFormed) ∧
      firstFault? rules n = some (.rule (n + i) rule.kind fault) := by
  induction rules generalizing n with
  | nil => exact .inl ⟨by simp, rfl⟩
  | cons rule rest ih =>
      cases own : rule.fault? with
      | some fault =>
          refine .inr ⟨0, rule, fault, rfl, own, by simp, ?_⟩
          simp [firstFault?, own]
      | none =>
          have good := rule.fault?_eq_none_iff.1 own
          rcases ih (n + 1) with ⟨allGood, noFault⟩ | ⟨i, faulty, fault, at_i, found, before, told⟩
          · refine .inl ⟨List.forall_mem_cons.2 ⟨good, allGood⟩, ?_⟩
            simpa [firstFault?, own] using noFault
          · refine .inr ⟨i + 1, faulty, fault, at_i, found, ?_, ?_⟩
            · rw [List.take_succ_cons]
              exact List.forall_mem_cons.2 ⟨good, before⟩
            · rw [show n + (i + 1) = n + 1 + i by omega]
              simpa [firstFault?, own] using told

theorem ruleFault?_eq_none_iff (c : ChainConfig) :
    c.ruleFault? = none ↔ ∀ rule ∈ c.rules, rule.WellFormed := by
  rcases firstFault?_cases c.rules 0 with
    ⟨allGood, noFault⟩ | ⟨i, rule, fault, at_i, found, -, told⟩
  · exact ⟨fun _ => allGood, fun _ => noFault⟩
  · refine ⟨fun noFault => ?_, fun allGood => ?_⟩
    · cases noFault.symm.trans told
    · have good := allGood rule (List.mem_of_getElem? at_i)
      cases (rule.fault?_eq_none_iff.2 good).symm.trans found

end ChainConfig

/-! ## Ranges -/

/-- The size of a bound among the bounds of its meter type: the double nearest to the milliseconds
    of a timer's, and the value itself of a summary's. -/
inductive ExpectedBound.HasSize (b : ExpectedBound) : Binary64 → Prop where
  | timer {millis : UInt64} {x : Binary64} : b.type = .timer → b.millis = some millis →
      Binary64.IsNearest millis.toNat x → HasSize b x
  | summary {x : Binary64} : b.type = .distributionSummary → b.value = some x → HasSize b x

namespace ChainConfig

/-- No meters have two bounds of one side, the bounds of overflow rules counted. -/
def BoundedOnce (c : ChainConfig) : Prop :=
  ∀ side, ((c.rules.flatMap (Rule.boundsOf side)).map fun b => (b.start, b.type)).Nodup

/-- A maximum of size `x` is below a minimum of size `y` for the same meters, wherever the two
    stand. -/
def Inverted (c : ChainConfig) (type : MeterType) (start : String) (x y : Binary64) : Prop :=
  ∃ hi ∈ c.rules.flatMap (Rule.boundsOf .maximum), ∃ lo ∈ c.rules.flatMap (Rule.boundsOf .minimum),
    hi.start = start ∧ lo.start = start ∧ hi.type = type ∧ lo.type = type ∧
      hi.HasSize x ∧ lo.HasSize y ∧ Binary64.lt x y = true

/-- No maximum is below a minimum for the same meters. -/
def RangesInOrder (c : ChainConfig) : Prop := ∀ type start x y, ¬ c.Inverted type start x y

end ChainConfig

namespace ExpectedBound

theorem sameMeters_iff {a b : ExpectedBound} :
    a.sameMeters b = true ↔ a.start = b.start ∧ a.type = b.type := by
  simp [sameMeters]

/-- Where meters are bounded once, the last bound for them is the only one. -/
theorem lastFor?_eq_some_iff {bounds : List ExpectedBound}
    (once : (bounds.map fun b => (b.start, b.type)).Nodup) {b found : ExpectedBound} :
    b.lastFor? bounds = some found ↔ found ∈ bounds ∧ b.sameMeters found = true := by
  refine ⟨fun h => ?_, fun ⟨listed, same⟩ => ?_⟩
  · exact ⟨List.mem_reverse.1 (List.mem_of_find?_eq_some h), List.find?_some h⟩
  · have some : (b.lastFor? bounds).isSome = true :=
      List.find?_isSome.2 ⟨found, List.mem_reverse.2 listed, same⟩
    obtain ⟨last, is_last⟩ := Option.isSome_iff_exists.1 some
    have last_listed := List.mem_reverse.1 (List.mem_of_find?_eq_some is_last)
    have last_same := sameMeters_iff.1 (List.find?_some is_last)
    have found_same := sameMeters_iff.1 same
    have alike : (last.start, last.type) = (found.start, found.type) := by
      rw [← last_same.1, ← last_same.2, found_same.1, found_same.2]
    rw [is_last, List.inj_on_of_nodup_map once last_listed listed alike]

theorem lastFor?_self {bounds : List ExpectedBound}
    (once : (bounds.map fun b => (b.start, b.type)).Nodup) {b : ExpectedBound}
    (listed : b ∈ bounds) : b.lastFor? bounds = some b :=
  (lastFor?_eq_some_iff once).2 ⟨listed, sameMeters_iff.2 ⟨rfl, rfl⟩⟩

variable {b : ExpectedBound}

theorem isNearest_millis_iff {millis : UInt64} {x : Binary64} :
    Binary64.IsNearest millis.toNat x ↔ x = .ofNat millis.toNat := by
  have small : (millis.toNat : Int).natAbs < 2 ^ 128 :=
    Nat.lt_of_lt_of_le millis.toNat_lt (Nat.pow_le_pow_right Nat.two_pos (by omega))
  rw [Binary64.isNearest_iff small, Binary64.ofInt_natCast]

theorem HasSize.eq_magnitude {x : Binary64} (size : b.HasSize x) : x = b.magnitude := by
  cases size with
  | timer timer given nearest =>
      rw [magnitude_of_timer timer, given]
      exact isNearest_millis_iff.1 nearest
  | summary summary given =>
      rw [magnitude, summary, given]
      rfl

theorem hasSize_of_timer {millis : UInt64} (timer : b.type = .timer)
    (given : b.millis = some millis) : b.HasSize b.magnitude := by
  refine .timer timer given (isNearest_millis_iff.2 ?_)
  rw [magnitude_of_timer timer, given]
  rfl

theorem WellFormed.hasSize (good : b.WellFormed) : b.HasSize b.magnitude := by
  rcases good with ⟨timer, -, millis, given, -⟩ | ⟨summary, -, value, given, -⟩
  · exact hasSize_of_timer timer given
  · refine .summary summary ?_
    rw [magnitude, summary, given]
    rfl

end ExpectedBound

section

variable {maxima minima : List ExpectedBound} {b : ExpectedBound} {fault : ConfigFault}

/-- Where meters are bounded once, a bound is compared with the only minimum for its meters. -/
theorem invertedAt?_eq_some_iff (once_max : (maxima.map fun b => (b.start, b.type)).Nodup)
    (once_min : (minima.map fun b => (b.start, b.type)).Nodup) (listed : b ∈ maxima) :
    invertedAt? maxima minima b = some fault ↔
      ∃ lo ∈ minima, b.start = lo.start ∧ b.type = lo.type ∧
        Binary64.lt b.magnitude lo.magnitude = true ∧
        fault = .invertedRange b.magnitude lo.magnitude b.type b.start := by
  rw [invertedAt?, ExpectedBound.lastFor?_self once_max listed]
  constructor
  · intro told
    cases other : b.lastFor? minima with
    | none => simp [other] at told
    | some lo =>
        obtain ⟨lo_listed, same⟩ := (ExpectedBound.lastFor?_eq_some_iff once_min).1 other
        obtain ⟨started, typed⟩ := ExpectedBound.sameMeters_iff.1 same
        simp only [other, Option.ite_none_right_eq_some, Option.some.injEq] at told
        exact ⟨lo, lo_listed, started, typed, told.1, told.2.symm⟩
  · rintro ⟨lo, lo_listed, started, typed, inverted, rfl⟩
    have other : b.lastFor? minima = some lo :=
      (ExpectedBound.lastFor?_eq_some_iff once_min).2
        ⟨lo_listed, ExpectedBound.sameMeters_iff.2 ⟨started, typed⟩⟩
    simp only [other, if_pos inverted]

theorem eq_of_invertedAt? (found : invertedAt? maxima minima b = some fault) :
    ∃ max min, fault = .invertedRange max min b.type b.start := by
  unfold invertedAt? at found
  split at found
  · rw [Option.ite_none_right_eq_some, Option.some.injEq] at found
    exact ⟨_, _, found.2.symm⟩
  · cases found

/-- An order in which one bound is met before all others. -/
def TableOrder.startingAt (b : ExpectedBound) : TableOrder where
  arrange bounds := if b ∈ bounds then b :: bounds.erase b else bounds
  perm bounds := by
    split
    · next listed => exact (List.perm_cons_erase listed).symm
    · exact .refl bounds

/-- Any range that is inverted may be the one that is reported, and no other. -/
theorem exists_invertedRange?_iff :
    (∃ order, invertedRange? maxima minima order = some fault) ↔
      ∃ b ∈ maxima, invertedAt? maxima minima b = some fault := by
  constructor
  · rintro ⟨order, told⟩
    obtain ⟨b, met, found⟩ := List.exists_of_findSome?_eq_some told
    exact ⟨b, (order.perm maxima).mem_iff.1 met, found⟩
  · rintro ⟨b, listed, found⟩
    refine ⟨.startingAt b, ?_⟩
    show (if b ∈ maxima then b :: maxima.erase b else maxima).findSome? _ = _
    rw [if_pos listed, List.findSome?_cons, found]

end

/-! ## The check -/

namespace ChainConfig

variable {c : ChainConfig}

theorem validate_of_ruleFault? {fault : ConfigFault} (h : c.ruleFault? = some fault)
    (order : TableOrder) : c.validate order = .error fault := by
  simp [validate, fault?, h]

theorem exists_validate_eq_error_iff (h : c.ruleFault? = none) (fault : ConfigFault) :
    (∃ order, c.validate order = .error fault) ↔ ∃ b ∈ c.rules.flatMap Rule.maxima,
      invertedAt? (c.rules.flatMap Rule.maxima) (c.rules.flatMap Rule.minima) b = some fault := by
  rw [← exists_invertedRange?_iff]
  refine exists_congr fun order => ?_
  rw [validate, fault?, h, show (none <|> invertedRange? _ _ order) = _ from rfl]
  cases invertedRange? (c.rules.flatMap Rule.maxima) (c.rules.flatMap Rule.minima) order <;> simp

/-- If all rules are well formed, the check compares bounds by their sizes. -/
theorem inverted_iff (once : c.BoundedOnce) (good : ∀ rule ∈ c.rules, rule.WellFormed)
    {type : MeterType} {start : String} {x y : Binary64} :
    c.Inverted type start x y ↔ ∃ b ∈ c.rules.flatMap Rule.maxima,
      invertedAt? (c.rules.flatMap Rule.maxima) (c.rules.flatMap Rule.minima) b =
        some (.invertedRange x y type start) := by
  have well_formed {side : Side} {b : ExpectedBound}
      (listed : b ∈ c.rules.flatMap (Rule.boundsOf side)) : b.WellFormed := by
    obtain ⟨rule, mem, own⟩ := List.mem_flatMap.1 listed
    have unfaulted := rule.fault?_eq_none_iff.2 (good rule mem)
    exact ExpectedBound.wellFormed_of_fault? (Rule.fault?_of_mem_boundsOf unfaulted b own)
  refine exists_congr fun hi => and_congr_right fun hi_listed => ?_
  refine Iff.trans (exists_congr fun lo => and_congr_right fun lo_listed => ?_)
    (invertedAt?_eq_some_iff (once .maximum) (once .minimum) hi_listed).symm
  constructor
  · rintro ⟨rfl, started, rfl, typed, hi_size, lo_size, inverted⟩
    rw [hi_size.eq_magnitude, lo_size.eq_magnitude] at inverted ⊢
    exact ⟨started.symm, typed.symm, inverted, rfl⟩
  · rintro ⟨started, typed, inverted, told⟩
    cases told
    exact ⟨rfl, started.symm, rfl, typed.symm, (well_formed hi_listed).hasSize,
      (well_formed lo_listed).hasSize, inverted⟩

/-- The only faults of ranges are inverted ones. -/
theorem rangesInOrder_iff (once : c.BoundedOnce) (good : ∀ rule ∈ c.rules, rule.WellFormed) :
    c.RangesInOrder ↔ ∀ b ∈ c.rules.flatMap Rule.maxima,
      invertedAt? (c.rules.flatMap Rule.maxima) (c.rules.flatMap Rule.minima) b = none := by
  refine ⟨fun ordered b listed => ?_, fun unreported type start x y inverted => ?_⟩
  · cases found : invertedAt? (c.rules.flatMap Rule.maxima) (c.rules.flatMap Rule.minima) b with
    | none => rfl
    | some fault =>
        obtain ⟨lo, -, -, -, -, rfl⟩ :=
          (invertedAt?_eq_some_iff (once .maximum) (once .minimum) listed).1 found
        exact absurd ((inverted_iff once good).2 ⟨b, listed, found⟩) (ordered _ _ _ _)
  · obtain ⟨b, listed, found⟩ := (inverted_iff once good).1 inverted
    cases (unreported b listed).symm.trans found

theorem validate_eq_ok_iff_wellFormed (once : c.BoundedOnce) (order : TableOrder) :
    c.validate order = .ok () ↔ (∀ rule ∈ c.rules, rule.WellFormed) ∧ c.RangesInOrder := by
  rw [validate_eq_ok_iff, ruleFault?_eq_none_iff]
  exact and_congr_right fun good => (rangesInOrder_iff once good).symm

end ChainConfig

end MeterGate
