set_option autoImplicit false

/-! # What stands between the parts of a document

Blanks, line ends and comments. A line ends with a line feed, alone or after a carriage return; a
carriage return elsewhere is refused, as is any other control character but the tab. Every reader of
this folder takes the characters that are left and gives back those that it leaves, or nothing if
the text is not well formed (`Reader`). -/

namespace MeterGate.Toml

/-- What reads something from the front of a text: what is read, and the characters that follow. -/
abbrev Reader (α : Type) := List Char → Option (α × List Char)

/-- A space or a tab. -/
def isBlank (c : Char) : Bool := c = ' ' || c = '\t'

/-- A control character other than the tab. -/
def isControl (c : Char) : Bool := (c.toNat < 0x20 && c ≠ '\t') || c.toNat = 0x7f

/-- What is left after blanks. -/
def skipBlanks : List Char → List Char := List.dropWhile isBlank

/-- What is left after blanks, line ends and comments. -/
def skipFiller (inComment : Bool) : List Char → Option (List Char)
  | [] => some []
  | '\n' :: rest => skipFiller false rest
  | '\r' :: '\n' :: rest => skipFiller false rest
  | c :: rest =>
      if inComment then (if isControl c then none else skipFiller true rest)
      else if isBlank c then skipFiller false rest
      else if c = '#' then skipFiller true rest
      else some (c :: rest)

/-- What is left after a comment; the line end stays. -/
def skipComment : List Char → Option (List Char)
  | [] => some []
  | '\n' :: rest => some ('\n' :: rest)
  | '\r' :: '\n' :: rest => some ('\r' :: '\n' :: rest)
  | c :: rest => if isControl c then none else skipComment rest

/-- What is left after the end of a line, which may have blanks and a comment before it. -/
def endLine (cs : List Char) : Option (List Char) := do
  let cs := skipBlanks cs
  let cs ← if cs.head? = some '#' then skipComment cs else some cs
  match cs with
  | [] => some []
  | '\n' :: rest => some rest
  | '\r' :: '\n' :: rest => some rest
  | _ => none

end MeterGate.Toml
