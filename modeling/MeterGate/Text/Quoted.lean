import MeterGate.Text.GraphemeExtend
import MeterGate.Text.Unprintable

set_option autoImplicit false

/-! # Quoted text

Messages show a text in double quotes, with escapes for the quote, the backslash, the usual control
characters, and every character that would not be seen on its own. -/

namespace MeterGate.Quoted

/-- A character by its code point, as `\u{…}` in lowercase hexadecimal digits. -/
def codePoint (c : Char) : List Char :=
  ['\\', 'u', '\x7b'] ++ Nat.toDigits 16 c.toNat ++ ['\x7d']

/-- A character within quotes. -/
def escape (c : Char) : List Char :=
  if c = '\x00' then ['\\', '0']
  else if c = '\t' then ['\\', 't']
  else if c = '\r' then ['\\', 'r']
  else if c = '\n' then ['\\', 'n']
  else if c = '"' || c = '\\' then ['\\', c]
  else if graphemeExtend.contains c || unprintable.contains c then codePoint c
  else [c]

/-- A text in quotes. -/
def encode (s : String) : String :=
  String.ofList ('"' :: s.toList.flatMap escape ++ ['"'])

example : escape '\u200b' = ['\\', 'u', '\x7b', '2', '0', '0', 'b', '\x7d'] := by decide +kernel
example : escape 'é' = ['é'] := by decide +kernel
example : graphemeExtend.ascending = true := by decide +kernel
example : unprintable.ascending = true := by decide +kernel

end MeterGate.Quoted
