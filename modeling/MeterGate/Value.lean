import MeterGate.Binary64.Basic

set_option autoImplicit false

/-! # Document values

What a configuration text holds once it is read: numbers, booleans, texts, arrays, and tables as
lists of keys with values. Integers are kept whole, whatever their size. Two kinds of numerals get
into a document although they name no number of any width, and stay in the tree as such. -/

namespace MeterGate

/-- A value in a document. -/
inductive Value where
  | integer (n : Int)
  | real (x : Binary64)
  | boolean (b : Bool)
  | text (s : String)
  | array (items : List Value)
  | table (entries : List (String × Value))
  /-- An integer numeral without digits, or with characters that are no digits. -/
  | brokenInteger
  /-- A finite numeral whose nearest double is infinite. -/
  | vastReal

namespace Value

instance : Inhabited Value := ⟨boolean false⟩

/-- The key of the one-entry table that stands for a date or a time. -/
def momentKey : String := "$__toml_private_datetime"

/-- A date or a time, as a table. -/
def moment (s : String) : Value := table [(momentKey, text s)]

/-- The value of a key, the first one if it is repeated. -/
def find? (entries : List (String × Value)) (key : String) : Option Value :=
  (entries.find? (·.1 == key)).map (·.2)

end Value

/-! ## Ranges of integers -/

/-- Whether an integer is a signed 64-bit word, from -2^63 up to 2^63. -/
def isInt64 (n : Int) : Bool := -9223372036854775808 ≤ n && n < 9223372036854775808

/-- Whether an integer is an unsigned 64-bit word, below 2^64. -/
def isUInt64 (n : Int) : Bool := 0 ≤ n && n < 18446744073709551616

/-- Whether an integer is a 64-bit word, signed or unsigned. -/
def isWord (n : Int) : Bool := isInt64 n || isUInt64 n

/-- Whether an integer is a signed 128-bit word, from -2^127 up to 2^127. -/
def isInt128 (n : Int) : Bool :=
  -170141183460469231731687303715884105728 ≤ n && n < 170141183460469231731687303715884105728

/-- Whether an integer is a 128-bit word, signed or unsigned, from -2^127 up to 2^128. -/
def isDoubleWord (n : Int) : Bool :=
  -170141183460469231731687303715884105728 ≤ n && n < 340282366920938463463374607431768211456

theorem isWord_iff (n : Int) :
    isWord n = true ↔ -9223372036854775808 ≤ n ∧ n < 18446744073709551616 := by
  simp only [isWord, isInt64, isUInt64, Bool.or_eq_true, Bool.and_eq_true, decide_eq_true_eq]
  omega

end MeterGate
