set_option autoImplicit false

/-! # Sets of code points

A set of characters given by ascending ranges of code points, first and last included. -/

namespace MeterGate

/-- Ranges of code points, each with its first and last one. -/
abbrev CodePoints := List (Nat × Nat)

namespace CodePoints

/-- Whether a character is in one of the ranges. -/
def contains (ranges : CodePoints) (c : Char) : Bool :=
  ranges.any fun (first, last) => first ≤ c.toNat && c.toNat ≤ last

/-- Whether every range is in order and ends before the next one begins. -/
def ascending : CodePoints → Bool
  | [] => true
  | [(a, b)] => a ≤ b
  | (a, b) :: (c, d) :: rest => a ≤ b && b + 1 < c && ascending ((c, d) :: rest)

end CodePoints

end MeterGate
