import MeterGate.Binary64.Basic
import Mathlib.Algebra.Ring.Nat
import Mathlib.Data.Nat.Log
import Mathlib.Data.Nat.Size

set_option autoImplicit false

/-! # Rounding keeps the order

A conversion rounds once (`Magnitude.nearest`). The code of the nearest magnitude is a number of
whole binades, one for each place that is dropped, plus a quotient of at most 53 bits
(`Magnitude.quotient_lt`, `le_quotient`). So a larger number never gets a smaller code
(`nearest_mono`), and a number that loses no places is met exactly (`unitsOfCode_nearestCode`), as
natural numbers up to 2^53 are (`Binary64.lt_ofNat_iff`). -/

namespace MeterGate

namespace Magnitude

theorem binade_eq : binade = 2 ^ 52 := by decide

/-! ## Rounded quotients -/

theorem le_roundedQuotient (num den : Nat) : num / den ≤ roundedQuotient num den := by
  simp only [roundedQuotient]
  split_ifs <;> omega

theorem roundedQuotient_le (num den : Nat) : roundedQuotient num den ≤ num / den + 1 := by
  simp only [roundedQuotient]
  split_ifs <;> omega

theorem roundedQuotient_mono {a b : Nat} (h : a ≤ b) (den : Nat) :
    roundedQuotient a den ≤ roundedQuotient b den := by
  have quotients : a / den ≤ b / den := Nat.div_le_div_right h
  rcases Nat.lt_or_eq_of_le quotients with lower | same
  · calc roundedQuotient a den ≤ a / den + 1 := roundedQuotient_le a den
      _ ≤ b / den := lower
      _ ≤ roundedQuotient b den := le_roundedQuotient b den
  · -- with one quotient for both, the order is that of the remainders
    have remainders : a % den ≤ b % den := by
      have ha := Nat.div_add_mod a den
      have hb := Nat.div_add_mod b den
      rw [same] at ha
      omega
    simp only [roundedQuotient, same]
    split_ifs <;> omega

theorem roundedQuotient_of_dvd {num den : Nat} (pos : 0 < den) (h : den ∣ num) :
    roundedQuotient num den = num / den := by
  simp only [roundedQuotient, Nat.mod_eq_zero_of_dvd h]
  exact if_pos (by omega)

/-! ## Codes -/

/-- How many places are dropped from a quotient that keeps 53 bits. -/
def dropped (num den : Nat) : Nat := (num / den).log2 - 52

theorem nearestCode_eq (num den : Nat) :
    nearestCode num den
      = dropped num den * 2 ^ 52 + roundedQuotient num (den * 2 ^ dropped num den) := by
  rw [← binade_eq, ← Nat.shiftLeft_eq den]
  rfl

theorem dropped_mono {a b : Nat} (h : a ≤ b) (den : Nat) : dropped a den ≤ dropped b den := by
  have logs : (a / den).log2 ≤ (b / den).log2 := by
    rw [Nat.log2_eq_log_two, Nat.log2_eq_log_two]
    exact Nat.log_mono_right (Nat.div_le_div_right h)
  unfold dropped
  omega

theorem quotient_lt (num den : Nat) : num / (den * 2 ^ dropped num den) < 2 ^ 53 := by
  rw [← Nat.div_div_eq_div_mul, Nat.div_lt_iff_lt_mul (Nat.two_pow_pos _), ← Nat.pow_add]
  calc num / den < 2 ^ ((num / den).log2 + 1) := Nat.lt_log2_self
    _ ≤ 2 ^ (53 + dropped num den) := Nat.pow_le_pow_right (by decide) (by unfold dropped; omega)

theorem le_quotient (num den : Nat) (h : 0 < dropped num den) :
    2 ^ 52 ≤ num / (den * 2 ^ dropped num den) := by
  have deep : 52 + dropped num den = (num / den).log2 := by unfold dropped at *; omega
  have nonzero : num / den ≠ 0 := by
    intro zero
    rw [zero, Nat.log2_zero] at deep
    omega
  rw [← Nat.div_div_eq_div_mul, Nat.le_div_iff_mul_le (Nat.two_pow_pos _), ← Nat.pow_add, deep]
  exact Nat.log2_self_le nonzero

theorem nearestCode_mono {a b : Nat} (h : a ≤ b) (den : Nat) :
    nearestCode a den ≤ nearestCode b den := by
  rw [nearestCode_eq, nearestCode_eq]
  rcases Nat.lt_or_eq_of_le (dropped_mono h den) with fewer | same
  · -- a place more counts a binade, which makes up for the larger quotient and its rounding
    have below := roundedQuotient_le a (den * 2 ^ dropped a den)
    have short := quotient_lt a den
    have long := le_quotient b den (by omega)
    have above := le_roundedQuotient b (den * 2 ^ dropped b den)
    omega
  · rw [same]
    have quotients := roundedQuotient_mono h (den * 2 ^ dropped b den)
    omega

theorem code_nearest (num den : Nat) :
    (nearest num den).code = min (nearestCode (num <<< 1074) den) (2047 * binade) := rfl

theorem shiftLeft_strictMono (k : Nat) : StrictMono fun n : Nat => n <<< k := by
  intro a b h
  simp only [Nat.shiftLeft_eq_mul_pow]
  exact Nat.mul_lt_mul_of_pos_right h (Nat.two_pow_pos k)

theorem nearest_mono {a b : Nat} (h : a ≤ b) (den : Nat) :
    (nearest a den).code ≤ (nearest b den).code := by
  have codes := nearestCode_mono ((shiftLeft_strictMono 1074).monotone h) den
  rw [code_nearest, code_nearest]
  omega

/-! ## Exact codes -/

theorem unitsOfCode_small {code : Nat} (h : code / binade = 0) :
    unitsOfCode code = code % binade := by
  unfold unitsOfCode
  rw [h]

theorem unitsOfCode_large {code e : Nat} (h : code / binade = e + 1) :
    unitsOfCode code = (binade + code % binade) * 2 ^ e := by
  rw [← Nat.shiftLeft_eq]
  unfold unitsOfCode
  rw [h]

/-- A code is read back as what is kept, with the dropped places put on again. What is kept may have
    carried into a bit more. -/
theorem unitsOfCode_add {drop q : Nat} (short : q ≤ 2 ^ 53) (long : drop = 0 ∨ 2 ^ 52 ≤ q) :
    unitsOfCode (drop * 2 ^ 52 + q) = q * 2 ^ drop := by
  rcases Nat.lt_or_eq_of_le short with short | rfl
  · by_cases small : q < 2 ^ 52
    · -- a subnormal quotient, which drops nothing and has no leading bit to put back
      obtain rfl : drop = 0 := by omega
      rw [Nat.zero_mul, Nat.zero_add, Nat.pow_zero, Nat.mul_one, unitsOfCode_small, binade_eq]
      · exact Nat.mod_eq_of_lt small
      · rw [binade_eq]
        exact Nat.div_eq_of_lt small
    · have binades : (drop * 2 ^ 52 + q) / binade = drop + 1 := by rw [binade_eq]; omega
      have fraction : binade + (drop * 2 ^ 52 + q) % binade = q := by rw [binade_eq]; omega
      rw [unitsOfCode_large binades, fraction]
  · have binades : (drop * 2 ^ 52 + 2 ^ 53) / binade = (drop + 1) + 1 := by rw [binade_eq]; omega
    have fraction : binade + (drop * 2 ^ 52 + 2 ^ 53) % binade = 2 ^ 52 := by
      rw [binade_eq]; omega
    rw [unitsOfCode_large binades, fraction, Nat.pow_succ]
    omega

/-- Nothing is lost if the places that are dropped are empty. -/
theorem unitsOfCode_nearestCode {num : Nat} (h : 2 ^ dropped num 1 ∣ num) :
    unitsOfCode (nearestCode num 1) = num := by
  have long : dropped num 1 = 0 ∨ 2 ^ 52 ≤ num / 2 ^ dropped num 1 := by
    rcases Nat.eq_zero_or_pos (dropped num 1) with none | some
    · exact Or.inl none
    · have kept := le_quotient num 1 some
      rw [Nat.one_mul] at kept
      exact Or.inr kept
  have short := quotient_lt num 1
  rw [Nat.one_mul] at short
  rw [nearestCode_eq, Nat.one_mul, roundedQuotient_of_dvd (Nat.two_pow_pos _) h,
    unitsOfCode_add short.le long, Nat.div_mul_cancel h]

/-- A natural number up to 2^53 only loses empty places, whatever unit it is counted in. -/
theorem dropped_natural {n : Nat} (h : n ≤ 2 ^ 53) (k : Nat) :
    dropped (n <<< k) 1 ≤ k + 1 ∧ 2 ^ dropped (n <<< k) 1 ∣ n <<< k := by
  unfold dropped
  rw [Nat.div_one, Nat.shiftLeft_eq_mul_pow]
  rcases Nat.lt_or_eq_of_le h with below | rfl
  · rcases Nat.eq_zero_or_pos n with rfl | pos
    · rw [Nat.zero_mul, Nat.log2_zero]
      exact ⟨by omega, Nat.dvd_zero _⟩
    · have bits : (n * 2 ^ k).log2 < 53 + k := by
        rw [Nat.log2_lt (Nat.mul_ne_zero pos.ne' (Nat.two_pow_pos k).ne'), Nat.pow_add]
        exact Nat.mul_lt_mul_of_pos_right below (Nat.two_pow_pos k)
      have few : (n * 2 ^ k).log2 - 52 ≤ k := by omega
      exact ⟨by omega, Nat.dvd_trans (Nat.pow_dvd_pow 2 few) (Nat.dvd_mul_left _ n)⟩
  · rw [← Nat.pow_add, Nat.log2_two_pow]
    exact ⟨by omega, Nat.pow_dvd_pow 2 (by omega)⟩

/-- Natural numbers up to 2^53 are doubles. -/
theorem units_nearest {n : Nat} (h : n ≤ 2 ^ 53) : (nearest n 1).units = n <<< 1074 := by
  obtain ⟨few, exact⟩ := dropped_natural h 1074
  have short := quotient_lt (n <<< 1074) 1
  have rounded := roundedQuotient_le (n <<< 1074) (1 * 2 ^ dropped (n <<< 1074) 1)
  have finite : nearestCode (n <<< 1074) 1 ≤ 2047 * binade := by
    rw [nearestCode_eq, binade_eq]
    generalize dropped (n <<< 1074) 1 = drop at *
    generalize n <<< 1074 / (1 * 2 ^ drop) = q at *
    omega
  rw [units, code_nearest, Nat.min_eq_left finite]
  exact unitsOfCode_nearestCode exact

end Magnitude

namespace Binary64

theorem lt_ofNat (a b : Nat) :
    lt (ofNat a) (ofNat b) = true
      ↔ (Magnitude.nearest a 1).code < (Magnitude.nearest b 1).code := by
  simp [lt, ofNat, rank]

theorem lt_of_lt_ofNat {a b : Nat} (h : lt (ofNat a) (ofNat b) = true) : a < b := by
  rw [lt_ofNat] at h
  by_contra le
  have := Magnitude.nearest_mono (Nat.le_of_not_lt le) 1
  omega

/-- Up to 2^53 the order is exactly the same. -/
theorem lt_ofNat_iff {a b : Nat} (h : b ≤ 2 ^ 53) :
    lt (ofNat a) (ofNat b) = true ↔ a < b := by
  refine ⟨lt_of_lt_ofNat, fun lower => ?_⟩
  rw [lt_ofNat]
  refine Nat.lt_of_le_of_ne (Magnitude.nearest_mono (Nat.le_of_lt lower) 1) fun same => ?_
  -- numbers with one code are one number of units
  have units : (Magnitude.nearest a 1).units = (Magnitude.nearest b 1).units :=
    congrArg Magnitude.unitsOfCode same
  rw [Magnitude.units_nearest h, Magnitude.units_nearest (by omega)] at units
  exact lower.ne ((Magnitude.shiftLeft_strictMono 1074).injective units)

end Binary64

end MeterGate
