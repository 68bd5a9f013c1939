import MeterGate.Proofs.Rounding
import Mathlib.Data.Nat.Dist

set_option autoImplicit false

/-! # The double nearest to a natural number

What it is to round a natural number to a double can be said about natural numbers alone
(`Binary64.RoundsTo`): of the numbers with at most 53 bits and any number of zeros behind them
(`Binary64.Exact`) it is the nearest one, and of two that are equally near the one that is an even
multiple of the gap between them. There is exactly one such number (`Binary64.RoundsTo.unique`), the
one that keeps the 53 leading bits (`Binary64.rounded`), and the conversion is to its double
(`Binary64.units_nearest_eq`). So the order of two converted numbers is that of what they round to
(`Binary64.lt_ofNat_iff_rounded`). An integer is converted by its size, and keeps its sign
(`Binary64.isNearest_iff`). -/

namespace MeterGate

namespace Magnitude

/-! ## The nearest multiple -/

/-- A rounded quotient is off by half a divisor at most, and by as much only if it is even. -/
theorem dist_roundedQuotient {den : Nat} (pos : 0 < den) (num : Nat) :
    2 * Nat.dist num (roundedQuotient num den * den) ≤ den ∧
      (2 * Nat.dist num (roundedQuotient num den * den) = den → 2 ∣ roundedQuotient num den) := by
  have division := Nat.div_add_mod num den
  have below := Nat.mod_lt num pos
  rw [Nat.mul_comm] at division
  simp only [roundedQuotient]
  generalize num / den = q at division ⊢
  generalize num % den = r at division below ⊢
  have next : (q + 1) * den = q * den + den := Nat.succ_mul q den
  unfold Nat.dist
  split_ifs with low high
  · omega
  · omega
  · -- a tie: the quotient is rounded to the even neighbour
    rcases Nat.mod_two_eq_zero_or_one q with even | odd
    · rw [even, Nat.add_zero]
      omega
    · rw [odd]
      omega

/-- No multiple of the divisor is nearer than the rounded quotient's, and another one is as near
    only if it is the next one and the rounded quotient is even. -/
theorem dist_roundedQuotient_le {den : Nat} (pos : 0 < den) (num k : Nat) :
    Nat.dist num (roundedQuotient num den * den) ≤ Nat.dist num (k * den) ∧
      (k ≠ roundedQuotient num den →
        Nat.dist num (k * den) = Nat.dist num (roundedQuotient num den * den) →
        Nat.dist (roundedQuotient num den * den) (k * den) = den ∧
          2 ∣ roundedQuotient num den) := by
  obtain ⟨half, tie⟩ := dist_roundedQuotient pos num
  generalize roundedQuotient num den = q at half tie ⊢
  by_cases same : k = q
  · subst same
    exact ⟨Nat.le_refl _, fun other => absurd rfl other⟩
  · have apart : den ≤ Nat.dist (q * den) (k * den) := by
      rw [Nat.dist_mul_right]
      exact Nat.le_mul_of_pos_left den (Nat.dist_pos_of_ne (Ne.symm same))
    have between := Nat.dist.triangle_inequality (q * den) num (k * den)
    rw [Nat.dist_comm (q * den) num] at between
    refine ⟨by omega, fun _ near => ⟨by omega, tie (by omega)⟩⟩

/-! ## Smaller units -/

/-- To count in smaller units does not change a rounded quotient. -/
theorem roundedQuotient_mul {k : Nat} (pos : 0 < k) (num den : Nat) :
    roundedQuotient (num * k) (den * k) = roundedQuotient num den := by
  have low : 2 * (num % den * k) < den * k ↔ 2 * (num % den) < den := by
    rw [← Nat.mul_assoc, Nat.mul_lt_mul_right pos]
  have high : den * k < 2 * (num % den * k) ↔ den < 2 * (num % den) := by
    rw [← Nat.mul_assoc, Nat.mul_lt_mul_right pos]
  simp only [roundedQuotient, Nat.mul_div_mul_right _ _ pos, Nat.mul_mod_mul_right, low, high]

theorem dropped_shiftLeft {n : Nat} (some : 0 < dropped n 1) (k : Nat) :
    dropped (n <<< k) 1 = dropped n 1 + k := by
  simp only [dropped, Nat.div_one] at some ⊢
  have nonzero : n ≠ 0 := by
    rintro rfl
    rw [Nat.log2_zero] at some
    omega
  have logs : (n * 2 ^ k).log2 = n.log2 + k := by
    rw [Nat.log2_eq_iff (Nat.mul_ne_zero nonzero (Nat.two_pow_pos k).ne'), Nat.pow_add,
      Nat.add_right_comm, Nat.pow_add]
    exact ⟨Nat.mul_le_mul_right _ (Nat.log2_self_le nonzero),
      Nat.mul_lt_mul_of_pos_right Nat.lt_log2_self (Nat.two_pow_pos k)⟩
  rw [Nat.shiftLeft_eq_mul_pow, logs]
  omega

/-! ## Codes in order -/

theorem unitsOfCode_strictMono : StrictMono unitsOfCode := by
  refine strictMono_nat_of_lt_succ fun code => ?_
  have powers : ∀ e, 0 < 2 ^ e := Nat.two_pow_pos
  by_cases last : code % 2 ^ 52 + 1 = 2 ^ 52
  · -- the next code begins a binade
    have next : (code + 1) / binade = code / binade + 1 := by rw [binade_eq]; omega
    have fraction : (code + 1) % binade = 0 := by rw [binade_eq]; omega
    rw [unitsOfCode_large next, fraction]
    rcases h : code / binade with _ | e
    · rw [unitsOfCode_small h, binade_eq]
      omega
    · rw [unitsOfCode_large h, Nat.pow_succ, binade_eq]
      calc (2 ^ 52 + code % 2 ^ 52) * 2 ^ e < 2 ^ 53 * 2 ^ e :=
            Nat.mul_lt_mul_of_pos_right (by omega) (powers e)
        _ = (2 ^ 52 + 0) * (2 ^ e * 2) := by omega
  · have next : (code + 1) / binade = code / binade := by rw [binade_eq]; omega
    have fraction : (code + 1) % binade = code % binade + 1 := by rw [binade_eq]; omega
    rcases h : code / binade with _ | e
    · rw [unitsOfCode_small h, unitsOfCode_small (next.trans h), fraction]
      omega
    · rw [unitsOfCode_large h, unitsOfCode_large (next.trans h), fraction]
      exact Nat.mul_lt_mul_of_pos_right (by omega) (powers e)

end Magnitude

namespace Binary64

open Magnitude

/-! ## Rounding, said about natural numbers -/

/-- A natural number that is a double: 53 bits at most, with zeros behind them. -/
def Exact (n : Nat) : Prop := ∃ q e, q < 2 ^ 53 ∧ n = q * 2 ^ e

/-- A natural number rounds to the nearest one that is a double; of two that are equally near, to
    the one that is an even multiple of the gap between them. -/
structure RoundsTo (n m : Nat) : Prop where
  exact : Exact m
  nearest : ∀ other, Exact other → Nat.dist n m ≤ Nat.dist n other
  even : ∀ other, Exact other → other ≠ m → Nat.dist n other = Nat.dist n m →
    2 * Nat.dist m other ∣ m

theorem RoundsTo.unique {n m m' : Nat} (h : RoundsTo n m) (h' : RoundsTo n m') : m = m' := by
  by_contra differ
  have equally : Nat.dist n m = Nat.dist n m' :=
    Nat.le_antisymm (h.nearest m' h'.exact) (h'.nearest m h.exact)
  have even := h.even m' h'.exact (Ne.symm differ) equally.symm
  have even' := h'.even m h.exact differ equally
  rw [Nat.dist_comm m' m] at even'
  -- two even multiples of their own gap are not a gap apart
  have gap : 2 * Nat.dist m m' ∣ Nat.dist m m' := by
    rcases Nat.le_total m m' with le | le
    · rw [Nat.dist_eq_sub_of_le le] at even even' ⊢
      exact Nat.dvd_sub even' even
    · rw [Nat.dist_eq_sub_of_le_right le] at even even' ⊢
      exact Nat.dvd_sub even even'
  have pos := Nat.dist_pos_of_ne differ
  have := Nat.le_of_dvd pos gap
  omega

/-- A natural number with what is behind its 53 leading bits rounded off. -/
def rounded (n : Nat) : Nat := roundedQuotient n (2 ^ dropped n 1) * 2 ^ dropped n 1

theorem rounded_of_dropped {n : Nat} (none : dropped n 1 = 0) : rounded n = n := by
  rw [rounded, none, Nat.pow_zero, roundedQuotient_one, Nat.mul_one]

/-- What is kept fits into 53 bits, or rounding up has carried into the next one. -/
theorem roundedQuotient_le_two_pow (n : Nat) : roundedQuotient n (2 ^ dropped n 1) ≤ 2 ^ 53 := by
  have short := quotient_lt n 1
  rw [Nat.one_mul] at short
  have up := roundedQuotient_le n (2 ^ dropped n 1)
  omega

theorem exact_rounded (n : Nat) : Exact (rounded n) := by
  rcases Nat.lt_or_eq_of_le (roundedQuotient_le_two_pow n) with short | carry
  · exact ⟨_, _, short, rfl⟩
  · refine ⟨2 ^ 52, dropped n 1 + 1, by decide, ?_⟩
    rw [rounded, carry, ← Nat.pow_add, ← Nat.pow_add]
    congr 1
    omega

/-- A double is a multiple of a power of two, or has too few bits before its places. -/
theorem Exact.multiple_or_lt {m : Nat} (h : Exact m) (p : Nat) :
    (∃ k, m = k * 2 ^ p) ∨ m < 2 ^ 52 * 2 ^ p := by
  obtain ⟨q, e, short, rfl⟩ := h
  rcases Nat.lt_or_ge e p with fewer | more
  · refine Or.inr ?_
    calc q * 2 ^ e < 2 ^ 53 * 2 ^ e := Nat.mul_lt_mul_of_pos_right short (Nat.two_pow_pos e)
      _ = 2 ^ 52 * 2 ^ (e + 1) := by rw [Nat.pow_succ]; omega
      _ ≤ 2 ^ 52 * 2 ^ p := Nat.mul_le_mul_left _ (Nat.pow_le_pow_right (by decide) fewer)
  · refine Or.inl ⟨q * 2 ^ (e - p), ?_⟩
    rw [Nat.mul_assoc, ← Nat.pow_add]
    congr 2
    omega

/-- **Rounding.** The 53 leading bits of a natural number, rounded, are what it rounds to. -/
theorem roundsTo_rounded (n : Nat) : RoundsTo n (rounded n) := by
  rcases Nat.eq_zero_or_pos (dropped n 1) with none | some
  · have same := rounded_of_dropped none
    refine ⟨exact_rounded n, fun other _ => ?_, fun other _ differs near => ?_⟩
    · rw [same, Nat.dist_self]
      exact Nat.zero_le _
    · rw [same, Nat.dist_self] at near
      rw [same] at differs
      exact absurd (Nat.eq_of_dist_eq_zero near).symm differs
  · have places := Nat.two_pow_pos (dropped n 1)
    have leading : 2 ^ 52 * 2 ^ dropped n 1 ≤ n := by
      have kept := le_quotient n 1 some
      rwa [Nat.one_mul, Nat.le_div_iff_mul_le places] at kept
    -- a double with smaller places is farther away than the least one with these places
    have farther : ∀ other, other < 2 ^ 52 * 2 ^ dropped n 1 →
        Nat.dist n (rounded n) < Nat.dist n other := by
      intro other lower
      have least := (dist_roundedQuotient_le places n (2 ^ 52)).1
      rw [Nat.dist_eq_sub_of_le_right leading] at least
      rw [Nat.dist_eq_sub_of_le_right (by omega : other ≤ n)]
      exact Nat.lt_of_le_of_lt least (by omega)
    refine ⟨exact_rounded n, fun other double => ?_, fun other double differs near => ?_⟩
    · rcases double.multiple_or_lt (dropped n 1) with ⟨k, rfl⟩ | lower
      · exact (dist_roundedQuotient_le places n k).1
      · exact (farther other lower).le
    · rcases double.multiple_or_lt (dropped n 1) with ⟨k, rfl⟩ | lower
      · have distinct : k ≠ roundedQuotient n (2 ^ dropped n 1) := by
          rintro rfl
          exact differs rfl
        obtain ⟨gap, even⟩ := (dist_roundedQuotient_le places n k).2 distinct near
        rw [rounded, gap]
        exact Nat.mul_dvd_mul_right even _
      · exact absurd near (farther other lower).ne'

/-! ## The double of a natural number -/

/-- **Conversion.** The double nearest to a natural number is what the number rounds to. -/
theorem units_nearest_eq {n : Nat} (h : n < 2 ^ 128) :
    (nearest n 1).units = rounded n <<< 1074 := by
  rcases Nat.eq_zero_or_pos (dropped n 1) with none | some
  · have short := quotient_lt n 1
    rw [none, Nat.one_mul, Nat.pow_zero, Nat.div_one] at short
    rw [units_nearest short.le, rounded_of_dropped none]
  · have scaled : roundedQuotient (n <<< 1074) (1 * 2 ^ dropped (n <<< 1074) 1)
        = roundedQuotient n (2 ^ dropped n 1) := by
      rw [dropped_shiftLeft some, Nat.one_mul, Nat.pow_add, Nat.shiftLeft_eq_mul_pow,
        roundedQuotient_mul (Nat.two_pow_pos 1074)]
    have short := roundedQuotient_le_two_pow n
    have long : 2 ^ 52 ≤ roundedQuotient n (2 ^ dropped n 1) := by
      have kept := le_quotient n 1 some
      rw [Nat.one_mul] at kept
      exact kept.trans (le_roundedQuotient n _)
    have few : dropped n 1 < 77 := by
      have nonzero : n ≠ 0 := by
        rintro rfl
        simp [dropped] at some
      have bits := (Nat.log2_lt nonzero).2 h
      unfold dropped
      rw [Nat.div_one]
      omega
    have finite : nearestCode (n <<< 1074) 1 ≤ 2047 * binade := by
      rw [nearestCode_eq, scaled, dropped_shiftLeft some, binade_eq]
      omega
    rw [units, code_nearest, Nat.min_eq_left finite, nearestCode_eq, scaled, dropped_shiftLeft some,
      unitsOfCode_add short (Or.inr long), Nat.pow_add, ← Nat.mul_assoc, Nat.shiftLeft_eq_mul_pow]
    rfl

/-- The order of doubles is the order of what the numbers that they come from round to. -/
theorem lt_ofNat_iff_rounded {a b : Nat} (ha : a < 2 ^ 128) (hb : b < 2 ^ 128) :
    lt (ofNat a) (ofNat b) = true ↔ rounded a < rounded b := by
  rw [lt_ofNat, ← unitsOfCode_strictMono.lt_iff_lt]
  show (nearest a 1).units < (nearest b 1).units ↔ _
  rw [units_nearest_eq ha, units_nearest_eq hb]
  exact (shiftLeft_strictMono 1074).lt_iff_lt

theorem rounded_mono {a b : Nat} (hb : b < 2 ^ 128) (h : a ≤ b) : rounded a ≤ rounded b := by
  by_contra above
  have lower := (lt_ofNat_iff_rounded hb (Nat.lt_of_le_of_lt h hb)).2 (Nat.lt_of_not_le above)
  exact absurd (lt_of_lt_ofNat lower) (Nat.not_lt_of_le h)

/-! ## The double of an integer -/

/-- A double is an integer; zero is the positive one. -/
def IsInteger (n : Int) (x : Binary64) : Prop :=
  ∃ magnitude, x = number (n < 0) magnitude ∧ magnitude.units = n.natAbs <<< 1074

/-- A double is the one nearest to an integer: it has the sign of the integer, and its magnitude is
    what the integer's rounds to. -/
def IsNearest (n : Int) (x : Binary64) : Prop :=
  ∃ magnitude m, RoundsTo n.natAbs m ∧ x = number (n < 0) magnitude ∧
    magnitude.units = m <<< 1074

/-- Exactly one double is nearest to an integer, the converted one. -/
theorem isNearest_iff {n : Int} (h : n.natAbs < 2 ^ 128) (x : Binary64) :
    IsNearest n x ↔ x = ofInt n := by
  constructor
  · rintro ⟨⟨code, bound⟩, m, rounds, rfl, units⟩
    have same : m = rounded n.natAbs := rounds.unique (roundsTo_rounded _)
    rw [same, ← units_nearest_eq h] at units
    have codes : code = (nearest n.natAbs 1).code := unitsOfCode_strictMono.injective units
    subst codes
    rfl
  · rintro rfl
    exact ⟨_, _, roundsTo_rounded _, rfl, units_nearest_eq h⟩

theorem ofInt_natCast (n : Nat) : ofInt n = ofNat n := by
  have sign : decide ((n : Int) < 0) = false := decide_eq_false (by omega)
  rw [ofInt, sign, Int.natAbs_natCast]
  rfl

end Binary64

end MeterGate
