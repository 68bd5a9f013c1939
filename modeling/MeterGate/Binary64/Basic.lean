set_option autoImplicit false

/-! # Double-precision numbers

Histogram bounds are IEEE 754 doubles. They are kept here as exact data, so that every operation on
them is arithmetic of whole numbers.

A magnitude is its *code*: the 63 bits below the sign, read as a number. Codes count the magnitudes
in ascending order, infinity being the last one. `Magnitude.units` is the size of a finite magnitude
in units of 2^-1074, the least positive one, and `Magnitude.nearest` the way back: the magnitude
nearest to a fraction, ties going to the even code. Every conversion and product is one use of
`nearest`, so each rounds once. The codes above infinity's are those of NaNs, which numeric order
and text do not tell apart, but which are different data. -/

namespace MeterGate

/-! ## Magnitudes -/

/-- The number of codes that share an exponent, 2^52. -/
def binade : Nat := 1 <<< 52

/-- A magnitude: its code, which is at most that of infinity. -/
structure Magnitude where
  code : Nat
  code_le : code ≤ 2047 * binade
deriving DecidableEq, Repr

namespace Magnitude

/-- The magnitude that exceeds all finite ones. -/
def infinity : Magnitude := ⟨2047 * binade, Nat.le_refl _⟩

/-- The magnitude of zero. -/
def zero : Magnitude := ⟨0, Nat.zero_le _⟩

/-- Whether a magnitude is below infinity. -/
def isFinite (m : Magnitude) : Bool := m.code < 2047 * binade

/-- The size that a code stands for, in units of 2^-1074: the low 52 bits are the fraction, and a
    nonzero exponent adds the leading bit. -/
def unitsOfCode (code : Nat) : Nat :=
  match code / binade with
  | 0 => code % binade
  | e + 1 => (binade + code % binade) <<< e

/-- The size of a finite magnitude in units of 2^-1074. -/
def units (m : Magnitude) : Nat := unitsOfCode m.code

/-- A quotient rounded to the nearest whole number, a tie to the even one. -/
def roundedQuotient (num den : Nat) : Nat :=
  let q := num / den
  let r := num % den
  if 2 * r < den then q else if den < 2 * r then q + 1 else q + q % 2

/-- The code nearest to a number of units, given as a fraction: the quotient keeps its 53 leading
    bits (fewer where the codes are one unit apart), and the places dropped go to the exponent. -/
def nearestCode (num den : Nat) : Nat :=
  let drop := (num / den).log2 - 52
  drop * binade + roundedQuotient num (den <<< drop)

/-- The magnitude nearest to a fraction, a tie to the even code; past the largest finite one it is
    infinity. -/
def nearest (num den : Nat) : Magnitude :=
  ⟨min (nearestCode (num <<< 1074) den) (2047 * binade), Nat.min_le_right _ _⟩

theorem roundedQuotient_one (n : Nat) : roundedQuotient n 1 = n := by
  simp [roundedQuotient, Nat.mod_one]

end Magnitude

/-! ## Numbers -/

/-- What tells NaNs apart: the 52 low bits, which are not all zero, for that is infinity. -/
structure NanPayload where
  fraction : Nat
  fraction_pos : 0 < fraction
  fraction_lt : fraction < binade
deriving DecidableEq, Repr

/-- A double-precision number, or one of the NaNs. -/
inductive Binary64 where
  | notNumber (negative : Bool) (payload : NanPayload)
  | number (negative : Bool) (magnitude : Magnitude)
deriving DecidableEq, Repr

namespace Binary64

/-- Positive zero. -/
def zero : Binary64 := .number false .zero

instance : Inhabited Binary64 := ⟨zero⟩

/-- The NaN of a sign that carries nothing but the mark of a quiet one, its highest bit. -/
def quietNan (negative : Bool) : Binary64 := .notNumber negative ⟨1 <<< 51, by decide, by decide⟩

/-- The NaN that stands for no number in particular. -/
def nan : Binary64 := quietNan false

/-- Neither infinite nor NaN. -/
def isFinite : Binary64 → Bool
  | notNumber _ _ => false
  | number _ m => m.isFinite

/-- The place of a number in the order of all numbers: codes with a sign, so that both zeros
    share one place. -/
def rank (negative : Bool) (m : Magnitude) : Int := if negative then -m.code else m.code

/-- Numeric order; nothing is below or above NaN. -/
def lt : Binary64 → Binary64 → Bool
  | number s a, number t b => rank s a < rank t b
  | _, _ => false

/-- Numeric equality: NaN differs from itself, and both zeros are equal. -/
def eq : Binary64 → Binary64 → Bool
  | number s a, number t b => rank s a == rank t b
  | _, _ => false

/-- Numeric order or equality. -/
def le (x y : Binary64) : Bool := lt x y || eq x y

instance : BEq Binary64 := ⟨eq⟩

/-- The double nearest to a natural number. -/
def ofNat (n : Nat) : Binary64 := number false (.nearest n 1)

/-- The double nearest to an integer. -/
def ofInt (n : Int) : Binary64 := number (n < 0) (.nearest n.natAbs 1)

/-- The magnitude nearest to `coefficient · 10 ^ exponent`. Outside 10^-330 … 10^310 the answer is
    known without forming the power. -/
def magnitudeOfDecimal (coefficient : Nat) (exponent : Int) : Magnitude :=
  let top := (Nat.toDigits 10 coefficient).length + exponent
  if coefficient = 0 then .zero
  else if top > 310 then .infinity
  else if top < -330 then .zero
  else if 0 ≤ exponent then .nearest (coefficient * Nat.pow 10 exponent.toNat) 1
  else .nearest coefficient (Nat.pow 10 (-exponent).toNat)

/-- The double nearest to `± coefficient · 10 ^ exponent`. -/
def ofDecimal (negative : Bool) (coefficient : Nat) (exponent : Int) : Binary64 :=
  number negative (magnitudeOfDecimal coefficient exponent)

/-- The product, rounded once. -/
def mul : Binary64 → Binary64 → Binary64
  | number s a, number t b =>
      let negative := s != t
      if a.isFinite && b.isFinite then
        number negative (.nearest (a.units * b.units) (1 <<< 2148))
      else if a.code = 0 || b.code = 0 then nan
      else number negative .infinity
  | _, _ => nan

/-- Whether the sign is that of a negative number. -/
def isNegative : Binary64 → Bool
  | notNumber s _ => s
  | number s _ => s

/-- The 63 bits below the sign. -/
def code : Binary64 → Nat
  | notNumber _ p => 2047 * binade + p.fraction
  | number _ m => m.code

/-- The 64 bits, the sign first. -/
def bits (x : Binary64) : Nat := x.isNegative.toNat <<< 63 + x.code

/-- The bits in sixteen hexadecimal digits; every NaN is written `nan`. -/
def hex (x : Binary64) : String :=
  match x with
  | notNumber _ _ => "nan"
  | number _ _ =>
      let digits := Nat.toDigits 16 x.bits
      String.ofList (List.replicate (16 - digits.length) '0' ++ digits)

theorem code_lt (x : Binary64) : x.code < 1 <<< 63 := by
  cases x with
  | notNumber s p =>
      have small := p.fraction_lt
      simp only [code, binade] at small ⊢
      omega
  | number s m =>
      have small := m.code_le
      simp only [code, binade] at small ⊢
      omega

/-- Doubles with the same bits are the same. -/
theorem eq_of_bits_eq {x y : Binary64} (same : x.bits = y.bits) : x = y := by
  have hx := x.code_lt
  have hy := y.code_lt
  unfold bits at same
  have codes : x.code = y.code := by omega
  have signs : x.isNegative = y.isNegative := by
    have digits : x.isNegative.toNat = y.isNegative.toNat := by omega
    revert digits
    cases x.isNegative <;> cases y.isNegative <;> decide
  -- codes above infinity's are those of NaNs, and the others those of numbers
  cases x with
  | notNumber s p =>
      obtain ⟨f, pos, _⟩ := p
      cases y with
      | notNumber t q =>
          obtain ⟨g, _, _⟩ := q
          obtain rfl : s = t := signs
          obtain rfl : f = g := Nat.add_left_cancel codes
          rfl
      | number t m =>
          have small := m.code_le
          simp only [code] at codes
          omega
  | number s m =>
      obtain ⟨c, small⟩ := m
      cases y with
      | notNumber t q =>
          have pos := q.fraction_pos
          simp only [code] at codes
          omega
      | number t n =>
          obtain ⟨d, _⟩ := n
          obtain rfl : s = t := signs
          obtain rfl : c = d := codes
          rfl

example : (ofNat 1).hex = "3ff0000000000000" := by decide +kernel
example : (ofDecimal false 99 (-2)).hex = "3fefae147ae147ae" := by decide +kernel
example : (ofDecimal true 0 0).hex = "8000000000000000" := by decide +kernel

end Binary64

end MeterGate
