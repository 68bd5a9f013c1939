import MeterGate.Toml.Line

set_option autoImplicit false

/-! # Quoted texts

A text stands in double quotes, where a backslash begins an escape, or in single quotes, where every
character stands for itself. In three quotes it may go over several lines: a line end right after
the opening quotes is dropped, a backslash at the end of a line drops the white space up to the next
other character, and up to two quotes may stand before the closing ones.

First the extent of a text is found, then its content is read one character at a time. -/

namespace MeterGate.Toml

/-! ## Extents -/

/-- The content up to an unescaped double quote on the same line, and what follows the quote. -/
def untilQuote : List Char → Option (List Char × List Char)
  | [] => none
  | '"' :: rest => some ([], rest)
  | '\n' :: _ => none
  | '\\' :: c :: rest => (untilQuote rest).map fun (content, left) => ('\\' :: c :: content, left)
  | c :: rest => (untilQuote rest).map fun (content, left) => (c :: content, left)

/-- The content up to a single quote on the same line, and what follows the quote. -/
def untilApostrophe : List Char → Option (List Char × List Char)
  | [] => none
  | '\'' :: rest => some ([], rest)
  | '\n' :: _ => none
  | c :: rest => (untilApostrophe rest).map fun (content, left) => (c :: content, left)

/-- Up to two further quotes after the closing ones, which belong to the content. -/
def moreQuotes (quote : Char) (cs : List Char) : List Char × List Char :=
  let more := (cs.take 2).takeWhile (· = quote)
  (more, cs.drop more.length)

/-- The content up to three unescaped double quotes, and what follows them. -/
def untilThreeQuotes : List Char → Option (List Char × List Char)
  | [] => none
  | '"' :: '"' :: '"' :: rest => some (moreQuotes '"' rest)
  | '\\' :: c :: rest =>
      (untilThreeQuotes rest).map fun (content, left) => ('\\' :: c :: content, left)
  | c :: rest => (untilThreeQuotes rest).map fun (content, left) => (c :: content, left)

/-- The content up to three single quotes, and what follows them. -/
def untilThreeApostrophes : List Char → Option (List Char × List Char)
  | [] => none
  | '\'' :: '\'' :: '\'' :: rest => some (moreQuotes '\'' rest)
  | c :: rest => (untilThreeApostrophes rest).map fun (content, left) => (c :: content, left)

/-- The content without a line end at its beginning. -/
def dropFirstLineEnd : List Char → List Char
  | '\n' :: rest => rest
  | '\r' :: '\n' :: rest => rest
  | cs => cs

/-! ## Contents -/

/-- Where the reading of a content with escapes stands. -/
inductive Reading where
  | plain
  /-- After the carriage return of a line end. -/
  | lineEnd
  /-- After a backslash. -/
  | escape
  /-- Within a code point: the digits to come, and the value so far. -/
  | codePoint (digits code : Nat)
  /-- After a backslash at the end of a line; whether the line has ended yet. -/
  | fold (ended : Bool)
  /-- After the carriage return of a line end that is dropped. -/
  | foldLineEnd

/-- The value of a hexadecimal digit. -/
def hexDigit? (c : Char) : Option Nat :=
  if '0' ≤ c ∧ c ≤ '9' then some (c.toNat - '0'.toNat)
  else if 'a' ≤ c ∧ c ≤ 'f' then some (c.toNat - 'a'.toNat + 10)
  else if 'A' ≤ c ∧ c ≤ 'F' then some (c.toNat - 'A'.toNat + 10)
  else none

/-- The character of a code point, if there is one. -/
def charOf? (code : Nat) : Option Char :=
  if h : code.isValidChar then some (Char.ofNatAux code h) else none

/-- The character that a one-letter escape stands for. -/
def escaped? : Char → Option Char
  | 'b' => some '\x08'
  | 't' => some '\t'
  | 'n' => some '\n'
  | 'f' => some '\x0c'
  | 'r' => some '\r'
  | 'e' => some '\x1b'
  | '"' => some '"'
  | '\\' => some '\\'
  | _ => none

/-- Read one character outside of an escape. -/
def readPlain (lines : Bool) (c : Char) : Option (Option Char × Reading) :=
  if c = '\\' then some (none, .escape)
  else if lines && c = '\n' then some (some c, .plain)
  else if lines && c = '\r' then some (some c, .lineEnd)
  else if isControl c then none
  else some (some c, .plain)

/-- Read one character of a content with escapes: the character that it completes, if any, and where
    the reading stands after it. `lines` says whether the text may go over several lines. -/
def readChar (lines : Bool) (c : Char) : Reading → Option (Option Char × Reading)
  | .plain => readPlain lines c
  | .lineEnd => if c = '\n' then some (some c, .plain) else none
  | .escape =>
      if c = 'x' then some (none, .codePoint 2 0)
      else if c = 'u' then some (none, .codePoint 4 0)
      else if c = 'U' then some (none, .codePoint 8 0)
      else if lines && isBlank c then some (none, .fold false)
      else if lines && c = '\n' then some (none, .fold true)
      else if lines && c = '\r' then some (none, .foldLineEnd)
      else (escaped? c).map fun e => (some e, .plain)
  | .codePoint digits code => do
      let code := code * 16 + (← hexDigit? c)
      if digits ≤ 1 then
        let c ← charOf? code
        some (some c, .plain)
      else some (none, .codePoint (digits - 1) code)
  | .fold ended =>
      if isBlank c then some (none, .fold ended)
      else if c = '\n' then some (none, .fold true)
      else if c = '\r' then some (none, .foldLineEnd)
      else if ended then readPlain lines c
      else none
  | .foldLineEnd => if c = '\n' then some (none, .fold true) else none

/-- The text of a content with escapes. -/
def unescape (lines : Bool) : Reading → List Char → Option (List Char)
  | .plain, [] => some []
  | .fold true, [] => some []
  | _, [] => none
  | reading, c :: rest => do
      let (out, reading) ← readChar lines c reading
      let text ← unescape lines reading rest
      some (out.toList ++ text)

/-- Whether a content without escapes holds no control characters but tabs and, over several lines,
    line ends. -/
def isLiteral (lines : Bool) : List Char → Bool
  | [] => true
  | '\r' :: '\n' :: rest => lines && isLiteral lines rest
  | '\n' :: rest => lines && isLiteral lines rest
  | c :: rest => !isControl c && isLiteral lines rest

/-! ## Texts -/

/-- A text on one line, from its opening quote on. -/
def lineText? : List Char → Option (String × List Char)
  | '"' :: rest => do
      let (content, left) ← untilQuote rest
      let text ← unescape false .plain content
      some (String.ofList text, left)
  | '\'' :: rest => do
      let (content, left) ← untilApostrophe rest
      if isLiteral false content then some (String.ofList content, left) else none
  | _ => none

/-- A text, from its opening quote or quotes on. -/
def text? : List Char → Option (String × List Char)
  | '"' :: '"' :: '"' :: rest => do
      let (content, left) ← untilThreeQuotes rest
      let text ← unescape true .plain (dropFirstLineEnd content)
      some (String.ofList text, left)
  | '\'' :: '\'' :: '\'' :: rest => do
      let (content, left) ← untilThreeApostrophes rest
      let text := dropFirstLineEnd content
      if isLiteral true text then some (String.ofList text, left) else none
  | cs => lineText? cs

end MeterGate.Toml
