import MeterGate.Value

set_option autoImplicit false

/-! # Numerals

Decimal integers and reals may have a sign, have no leading zeros, and may have single underscores
between digits. Integers in base 16, 8 or 2 have a lowercase base mark and no sign. A real has a
fraction, an exponent or both, and digits on either side of its point.

Two faulty integers are still let into a document, where they name no number: one with a base mark
and nothing after it, and one whose first digits are followed by an underscore and then by more than
digits. -/

namespace MeterGate.Toml

/-! ## Runs of digits -/

/-- The digits of a run without its underscores, if each of these stands between two digits. -/
def digitRun? (isDigit : Char → Bool) : List Char → Option (List Char)
  | [] => none
  | [d] => if isDigit d then some [d] else none
  | d :: '_' :: rest => if isDigit d then (digitRun? isDigit rest).map (d :: ·) else none
  | d :: rest => if isDigit d then (digitRun? isDigit rest).map (d :: ·) else none

/-- The value of a digit up to `f`, in either case. -/
def digitValue (c : Char) : Nat :=
  if c.toNat ≤ '9'.toNat then c.toNat - '0'.toNat else c.toNat % 32 + 9

/-- The number that digits in a base stand for. -/
def ofDigits (base : Nat) (digits : List Char) : Nat :=
  digits.foldl (fun n d => n * base + digitValue d) 0

example : ofDigits 16 ['f', 'F', '0'] = 0xff0 := by decide

/-- The sign of a numeral, and what follows it. -/
def splitSign : List Char → Bool × List Char
  | '-' :: rest => (true, rest)
  | '+' :: rest => (false, rest)
  | cs => (false, cs)

/-- Decimal digits without a leading zero. -/
def plainDigits? (cs : List Char) : Option (List Char) :=
  match digitRun? Char.isDigit cs with
  | some ('0' :: _ :: _) => none
  | digits => digits

/-! ## Integers -/

/-- An integer after its base mark; without digits it is let through, and names no number. -/
def basedInteger? (base : Nat) (isDigit : Char → Bool) : List Char → Option Value
  | [] => some .brokenInteger
  | cs => (digitRun? isDigit cs).map fun digits => .integer (ofDigits base digits)

/-- Whether a character is a hexadecimal digit. -/
def isHexDigit (c : Char) : Bool :=
  c.isDigit || ('a' ≤ c && c ≤ 'f') || ('A' ≤ c && c ≤ 'F')

/-- An integer. -/
def integer? : List Char → Option Value
  | '0' :: 'x' :: cs => basedInteger? 16 isHexDigit cs
  | '0' :: 'o' :: cs => basedInteger? 8 (fun c => '0' ≤ c && c ≤ '7') cs
  | '0' :: 'b' :: cs => basedInteger? 2 (fun c => c = '0' || c = '1') cs
  | cs => do
      let (negative, body) := splitSign cs
      let digits ← plainDigits? body
      let n : Int := ofDigits 10 digits
      some (.integer (if negative then -n else n))

/-- Whether every underscore of a run stands between two hexadecimal digits. -/
def isSpaced : List Char → Bool
  | [] => true
  | '_' :: _ => false
  | [_, '_'] => false
  | c :: '_' :: d :: rest => isHexDigit c && isHexDigit d && isSpaced (d :: rest)
  | _ :: rest => isSpaced rest

/-- A character that an integer with anything else in it may still not have: a space would begin
    another word, and the others make a real. -/
def endsInteger (c : Char) : Bool := c = ' ' || c = '.' || c = 'e' || c = 'E'

/-- An integer that is let through although there is more than digits after its first underscore. -/
def brokenInteger? (cs : List Char) : Option Value :=
  let (_, body) := splitSign cs
  let (_, rest) := body.span Char.isDigit
  if body.head? ≠ some '0' && rest.head? = some '_' && isSpaced body && !rest.any endsInteger then
    some .brokenInteger
  else none

example : (brokenInteger? "+1_a".toList).isSome = true := by decide +kernel
example : (brokenInteger? "1_g".toList).isSome = false := by decide +kernel

/-! ## Reals -/

/-- The whole digits and the fraction digits of a mantissa. -/
def mantissa? (cs : List Char) : Option (List Char × List Char) := do
  let (whole, fraction) := cs.span (· ≠ '.')
  let whole ← plainDigits? whole
  match fraction with
  | [] => some (whole, [])
  | _ :: fraction => do
      let fraction ← digitRun? Char.isDigit fraction
      some (whole, fraction)

/-- The exponent that follows the exponent mark. -/
def exponent? (cs : List Char) : Option Int := do
  let (negative, body) := splitSign cs
  let digits ← digitRun? Char.isDigit body
  let n : Int := ofDigits 10 digits
  some (if negative then -n else n)

/-- A real as a value: the nearest double, unless it is infinite. -/
def realValue (negative : Bool) (coefficient : Nat) (exponent : Int) : Value :=
  let x := Binary64.ofDecimal negative coefficient exponent
  if x.isFinite then .real x else .vastReal

/-- A finite real in decimal notation. -/
def decimal? (cs : List Char) : Option Value := do
  let (negative, body) := splitSign cs
  let (mantissa, tail) := body.span fun c => c ≠ 'e' && c ≠ 'E'
  if tail = [] && !mantissa.contains '.' then none
  else
    let (whole, fraction) ← mantissa? mantissa
    let exponent ← match tail with
      | [] => some 0
      | _ :: tail => exponent? tail
    some (realValue negative (ofDigits 10 (whole ++ fraction)) (exponent - fraction.length))

/-- A real by name: infinity or NaN, with or without a sign. -/
def namedReal? (cs : List Char) : Option Value :=
  let (negative, body) := splitSign cs
  if body = ['i', 'n', 'f'] then some (.real (.number negative .infinity))
  else if body = ['n', 'a', 'n'] then some (.real (.quietNan negative))
  else none

end MeterGate.Toml
