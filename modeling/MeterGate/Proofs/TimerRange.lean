import MeterGate.Proofs.Acceptance
import MeterGate.Proofs.NearestNatural

set_option autoImplicit false

/-! # Ranges of timers

The bounds of timers are whole milliseconds, but the check compares them as doubles. A config that
bounds some timers from both sides, and nothing else, passes if its maximum is not below its minimum
(`ChainConfig.validate_iff_of_timerRange`). It also passes if the maximum is below the minimum and
both round to one double, which takes more than 2^53 milliseconds and a difference of at most 2^11
(`Binary64.le_add_of_rounded_eq`). The smallest such pair is let through although the filters' own
limits, in nanoseconds, are told apart (`ChainConfig.inverted_timerRange_passes`). -/

namespace MeterGate

namespace Binary64

/-- Words have at most eleven bits more than doubles. -/
theorem dist_rounded_le {n : Nat} (h : n < 2 ^ 64) : 2 * Nat.dist n (rounded n) ≤ 2 ^ 11 := by
  have half := (Magnitude.dist_roundedQuotient (Nat.two_pow_pos (Magnitude.dropped n 1)) n).1
  have few : Magnitude.dropped n 1 ≤ 11 := by
    rcases Nat.eq_zero_or_pos n with rfl | pos
    · simp [Magnitude.dropped]
    · have bits := (Nat.log2_lt pos.ne').2 h
      rw [Magnitude.dropped, Nat.div_one]
      omega
  exact half.trans (Nat.pow_le_pow_right (by decide) few)

theorem le_add_of_rounded_eq {a b : Nat} (ha : a < 2 ^ 64) (hb : b < 2 ^ 64)
    (same : rounded a = rounded b) : b ≤ a + 2 ^ 11 := by
  have of_a := dist_rounded_le ha
  have of_b := dist_rounded_le hb
  have between := Nat.dist.triangle_inequality b (rounded b) a
  rw [Nat.dist_comm (rounded b) a] at between
  rw [same] at of_a
  have above := Nat.dist_tri_right' b a
  omega

end Binary64

/-- The bound of so many milliseconds for timers whose name begins as given. -/
def ExpectedBound.ofTimer (start : String) (millis : UInt64) : ExpectedBound :=
  ⟨start, .timer, some millis, none⟩

namespace ChainConfig

variable {c : ChainConfig} {start : String} {a b : UInt64}

section

variable (highest : c.rules.flatMap (Rule.boundsOf .maximum) = [.ofTimer start a])
  (lowest : c.rules.flatMap (Rule.boundsOf .minimum) = [.ofTimer start b])
include highest lowest

theorem rangesInOrder_timers : c.RangesInOrder ↔
    Binary64.lt (.ofNat a.toNat) (.ofNat b.toNat) = false := by
  have magnitudes : ∀ millis, (ExpectedBound.ofTimer start millis).magnitude
      = .ofNat millis.toNat := fun millis => ExpectedBound.magnitude_of_timer rfl
  rw [← Bool.not_eq_true]
  constructor
  · intro ordered below
    refine ordered .timer start _ _ ⟨.ofTimer start a, by simp [highest], .ofTimer start b,
      by simp [lowest], rfl, rfl, rfl, rfl, ?_, ?_, below⟩
    · exact magnitudes a ▸ ExpectedBound.hasSize_of_timer rfl rfl
    · exact magnitudes b ▸ ExpectedBound.hasSize_of_timer rfl rfl
  · rintro ordered type start x y
      ⟨hi, hi_listed, lo, lo_listed, -, -, -, -, hi_size, lo_size, below⟩
    rw [highest, List.mem_singleton] at hi_listed
    rw [lowest, List.mem_singleton] at lo_listed
    subst hi_listed lo_listed
    rw [hi_size.eq_magnitude, lo_size.eq_magnitude, magnitudes, magnitudes] at below
    exact ordered below

theorem boundedOnce_timers : c.BoundedOnce := by
  intro side
  cases side with
  | maximum => rw [highest]; exact List.nodup_singleton _
  | minimum => rw [lowest]; exact List.nodup_singleton _

theorem validate_iff_not_lt (good : ∀ rule ∈ c.rules, rule.WellFormed) :
    c.validate = .ok () ↔ ¬ Binary64.lt (.ofNat a.toNat) (.ofNat b.toNat) = true := by
  rw [validate_eq_ok_iff_wellFormed (boundedOnce_timers highest lowest), and_iff_right good,
    rangesInOrder_timers highest lowest, Bool.not_eq_true]

end

/-- **When the range of timers passes.** All rules of a config are well formed, and its only bounds
    are a maximum of `a` and a minimum of `b` milliseconds for the timers whose name begins as
    given, wherever the two stand. The config passes its check exactly if the maximum is not below
    the minimum or both round to the same double. So the check is exact for a minimum of up to 2^53
    milliseconds, and a maximum that passes is never lower than the minimum by more than 2^11. -/
theorem validate_iff_of_timerRange (c : ChainConfig) (start : String) (a b : UInt64)
    (good : ∀ rule ∈ c.rules, rule.WellFormed)
    (highest : c.rules.flatMap (Rule.boundsOf .maximum) = [.ofTimer start a])
    (lowest : c.rules.flatMap (Rule.boundsOf .minimum) = [.ofTimer start b]) :
    ∃ x y, Binary64.RoundsTo a.toNat x ∧ Binary64.RoundsTo b.toNat y ∧
      (c.validate = .ok () ↔ b ≤ a ∨ x = y) ∧
      (b.toNat ≤ 2 ^ 53 → (c.validate = .ok () ↔ b ≤ a)) ∧
      (c.validate = .ok () → b.toNat ≤ a.toNat + 2 ^ 11) := by
  have passes := validate_iff_not_lt highest lowest good
  have word_lt : ∀ n : UInt64, n.toNat < 2 ^ 128 := fun n =>
    Nat.lt_of_lt_of_le n.toNat_lt (Nat.pow_le_pow_right Nat.two_pos (by omega))
  have doubles := passes.trans
    (not_congr (Binary64.lt_ofNat_iff_rounded (word_lt a) (word_lt b)))
  have order : ∀ {m n : UInt64}, m ≤ n → Binary64.rounded m.toNat ≤ Binary64.rounded n.toNat :=
    fun le => Binary64.rounded_mono (word_lt _) (UInt64.le_iff_toNat_le.1 le)
  have exactly : c.validate = .ok () ↔
      b ≤ a ∨ Binary64.rounded a.toNat = Binary64.rounded b.toNat := by
    rw [doubles]
    refine ⟨fun notBelow => ?_, ?_⟩
    · rcases UInt64.le_total b a with le | ge
      · exact Or.inl le
      · exact Or.inr (Nat.le_antisymm (order ge) (Nat.le_of_not_lt notBelow))
    · rintro (le | same)
      · exact Nat.not_lt_of_le (order le)
      · exact Nat.not_lt_of_le same.ge
  refine ⟨_, _, Binary64.roundsTo_rounded _, Binary64.roundsTo_rounded _, exactly, ?_, ?_⟩
  · intro few
    rw [passes, Binary64.lt_ofNat_iff few, UInt64.le_iff_toNat_le, Nat.not_lt]
  · intro valid
    rcases exactly.1 valid with le | same
    · exact (UInt64.le_iff_toNat_le.1 le).trans (Nat.le_add_right _ _)
    · exact Binary64.le_add_of_rounded_eq a.toNat_lt b.toNat_lt same

/-- Both bounds are 2^53 milliseconds or less, and the minimum is behind a tag limit. -/
theorem validate_iff_of_timerRange_nested :
    let c : ChainConfig := { rules := [
      .maximumAllowableTags "http.requests" "uri" 10
        (.minExpected (.ofTimer "http" 9007199254740992)),
      .maxExpected (.ofTimer "http" 9007199254740991)] }
    (∀ rule ∈ c.rules, rule.WellFormed) ∧
    c.rules.flatMap (Rule.boundsOf .maximum) = [.ofTimer "http" 9007199254740991] ∧
    c.rules.flatMap (Rule.boundsOf .minimum) = [.ofTimer "http" 9007199254740992] ∧
    c.validate ≠ .ok () := by
  intro c
  have good : ∀ rule ∈ c.rules, rule.WellFormed := by
    simp [c, Rule.WellFormed, ExpectedBound.WellFormed, ExpectedBound.ofTimer, Rule.kind]
  obtain ⟨x, y, -, -, -, exact, -⟩ :=
    validate_iff_of_timerRange c "http" 9007199254740991 9007199254740992 good rfl rfl
  refine ⟨good, rfl, rfl, fun valid => ?_⟩
  exact absurd ((exact (by decide)).1 valid) (by decide)

/-- A maximum of 2^53 milliseconds below a minimum of one more passes, and leaves the filters' own
    limits the wrong way round. -/
theorem inverted_timerRange_passes :
    let hi : ExpectedBound := .ofTimer "http" 9007199254740992
    let lo : ExpectedBound := .ofTimer "http" 9007199254740993
    let c : ChainConfig := { rules := [.maxExpected hi, .minExpected lo] }
    (∀ rule ∈ c.rules, rule.WellFormed) ∧
    c.rules.flatMap (Rule.boundsOf .maximum) = [hi] ∧
    c.rules.flatMap (Rule.boundsOf .minimum) = [lo] ∧
    c.validate = .ok () ∧ ¬ (9007199254740993 : UInt64) ≤ 9007199254740992 ∧
    Binary64.lt hi.limit lo.limit = true := by
  intro hi lo c
  refine ⟨?_, rfl, rfl, by decide +kernel, by decide, by decide +kernel⟩
  simp [c, hi, lo, Rule.WellFormed, ExpectedBound.WellFormed, ExpectedBound.ofTimer]

end ChainConfig

end MeterGate
