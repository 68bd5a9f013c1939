import MeterGate.Binary64.Basic

set_option autoImplicit false

/-! # The shortest decimal of a double

A double is written with the fewest digits that read back as the same double, and of those the ones
nearest to it. The numbers that read back as a magnitude are those between the midpoints to its two
neighbours, midpoints included when its code is even (ties go to the even code). So the digits are
found on the coarsest grid of multiples of a power of ten that has a point in between
(`Magnitude.shortest`). They are written positionally, whatever the size. -/

namespace MeterGate

/-- A decimal: `coefficient · 10 ^ exponent`. -/
structure Decimal where
  coefficient : Nat
  exponent : Int
deriving DecidableEq, Repr

namespace Decimal

/-- The digits of a decimal with a point where it has a fraction, and never an exponent. -/
def positional (d : Decimal) : String :=
  let digits := Nat.toDigits 10 d.coefficient
  if 0 ≤ d.exponent then
    String.ofList (digits ++ List.replicate d.exponent.toNat '0')
  else
    let places := (-d.exponent).toNat
    let padded := List.replicate (places + 1 - digits.length) '0' ++ digits
    let whole := padded.length - places
    String.ofList (padded.take whole ++ '.' :: padded.drop whole)

example : (Decimal.mk 15 (-1)).positional = "1.5" := by decide +kernel
example : (Decimal.mk 1 (-7)).positional = "0.0000001" := by decide +kernel
example : (Decimal.mk 12 2).positional = "1200" := by decide +kernel

end Decimal

namespace Magnitude

/-- Whether the fraction `num / den` of half units reads back as the code: it lies between the
    midpoints to the neighbouring codes, or on one of them if the code is even. -/
def readsBack (code num den : Nat) : Bool :=
  let low := (unitsOfCode (code - 1) + unitsOfCode code) * den
  let high := (unitsOfCode code + unitsOfCode (code + 1)) * den
  if code % 2 = 0 then low ≤ num && num ≤ high else low < num && num < high

/-- The multiple of a power of ten, if there is one, that reads back as the code; of two the
    nearer one, and the upper one if they are equally near. -/
def onGrid? (code : Nat) (exponent : Int) : Option Decimal :=
  -- One step of the grid is `step / den` half units.
  let step := Nat.pow 10 exponent.toNat <<< 1075
  let den := Nat.pow 10 (-exponent).toNat
  let value := 2 * unitsOfCode code * den
  let below := value / step
  let lowOk := readsBack code (below * step) den
  let highOk := readsBack code ((below + 1) * step) den
  let nearer := if 2 * (value % step) < step then below else below + 1
  match lowOk, highOk with
  | true, true => some ⟨nearer, exponent⟩
  | true, false => some ⟨below, exponent⟩
  | false, true => some ⟨below + 1, exponent⟩
  | false, false => none

/-- The first grid with a hit among `steps` grids, each ten times as fine as the one before. -/
def shortestFrom (code : Nat) : Nat → Int → Decimal
  | 0, exponent => ⟨0, exponent⟩
  | steps + 1, exponent =>
      match onGrid? code exponent with
      | some d => d
      | none => shortestFrom code steps (exponent - 1)

/-- The shortest decimal that reads back as a finite magnitude: all magnitudes lie below 10^309,
    and grids finer than 10^-324 are finer than the magnitudes are apart. -/
def shortest (m : Magnitude) : Decimal :=
  if m.code = 0 then ⟨0, 0⟩ else shortestFrom m.code 640 309

end Magnitude

namespace Binary64

/-- A number in shortest positional notation. -/
def text : Binary64 → String
  | notNumber _ _ => "NaN"
  | number s m =>
      let body := if m.isFinite then m.shortest.positional else "inf"
      if s then "-" ++ body else body

/-- As `text`, with `.0` after a finite whole number. -/
def pointedText (x : Binary64) : String :=
  if x.isFinite && !x.text.toList.contains '.' then x.text ++ ".0" else x.text

example : (ofDecimal false 1 (-1)).text = "0.1" := by decide +kernel
example : (ofDecimal true 0 0).text = "-0" := by decide +kernel
example : (ofNat 1000000000000000000000).text = "1000000000000000000000" := by decide +kernel

end Binary64

end MeterGate
