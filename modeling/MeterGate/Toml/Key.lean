import MeterGate.Toml.Text

set_option autoImplicit false

/-! # Keys

A key is a bare word of letters, digits, underscores and hyphens, or a text on one line. Keys joined
by dots name a path through nested tables, of at most eighty steps. -/

namespace MeterGate.Toml

/-- A character of a bare key. -/
def isBareKeyChar (c : Char) : Bool :=
  c.isDigit || ('a' ≤ c && c ≤ 'z') || ('A' ≤ c && c ≤ 'Z') || c = '_' || c = '-'

/-- A single key. -/
def key? (cs : List Char) : Option (String × List Char) :=
  let (bare, rest) := cs.span isBareKeyChar
  if bare.isEmpty then lineText? cs else some (String.ofList bare, rest)

/-- A path of at most `most` keys, and what follows it and the blanks after it. Blanks may stand
    around the dots. -/
def keyPathWithin? : (most : Nat) → List Char → Option (List String × List Char)
  | 0, _ => none
  | most + 1, cs => do
      let (key, cs) ← key? cs
      match skipBlanks cs with
      | '.' :: rest => do
          let (path, cs) ← keyPathWithin? most (skipBlanks rest)
          some (key :: path, cs)
      | cs => some ([key], cs)

/-- How many keys a path may have. -/
def maxKeys : Nat := 80

/-- A path of keys, and what follows it and the blanks after it. -/
def keyPath? (cs : List Char) : Option (List String × List Char) := keyPathWithin? maxKeys cs

end MeterGate.Toml
