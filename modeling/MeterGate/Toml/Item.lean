import MeterGate.Toml.Key
import MeterGate.Toml.Moment
import MeterGate.Toml.Number
import MeterGate.Toml.Table

set_option autoImplicit false

/-! # Values in a document

A value is a text, a scalar, an array or an inline table. Arrays and inline tables may go over
several lines, may end with a comma, and may be nested eighty deep. What is neither of the two is
read by a reader that is a parameter here, and `simpleValue?` wherever a document is read. -/

namespace MeterGate.Toml

/-! ## Scalars -/

/-- A character that ends an unquoted scalar. -/
def isScalarEnd (c : Char) : Bool :=
  c = '\n' || c = '\r' || c = '#' || c = ',' || c = '=' || c = '[' || c = ']'
    || c = '\x7b' || c = '\x7d'

/-- The value that an unquoted run of characters stands for. -/
def scalar? (run : List Char) : Option Value :=
  if run = ['t', 'r', 'u', 'e'] then some (.boolean true)
  else if run = ['f', 'a', 'l', 's', 'e'] then some (.boolean false)
  else if isMoment run then some (.moment (String.ofList run))
  else namedReal? run <|> integer? run <|> decimal? run <|> brokenInteger? run

/-- Whether an unquoted scalar goes on after blanks: it does over a further word, as a date does
    over its time, but not over a text in quotes. -/
def goesOn (cs : List Char) : Bool :=
  match skipBlanks cs with
  | [] => false
  | c :: _ => !isScalarEnd c && c ≠ '"' && c ≠ '\''

/-- The characters of an unquoted scalar, and what follows them. -/
def scalarRun : List Char → List Char × List Char
  | [] => ([], [])
  | c :: rest =>
      if isScalarEnd c || isBlank c && !goesOn rest then ([], c :: rest)
      else
        let (run, left) := scalarRun rest
        (c :: run, left)

/-- A text or an unquoted scalar, and what follows it. -/
def simpleValue? (cs : List Char) : Option (Value × List Char) :=
  match cs with
  | '"' :: _ | '\'' :: _ => (text? cs).map fun (s, rest) => (.text s, rest)
  | _ =>
      let (run, rest) := scalarRun cs
      (scalar? run).map fun v => (v, rest)

/-! ## Arrays and inline tables -/

section

variable (leaf : Reader Value)

mutual

/-- A value, and what follows it. `depth` says how many arrays and inline tables may still be
    opened. Every other step takes a character, so `bound` is any number above twice that of the
    characters. -/
def value? : (bound depth : Nat) → List Char → Option (Value × List Char)
  | 0, _, _ => none
  | bound + 1, depth, cs =>
      match cs, depth with
      | '[' :: rest, depth + 1 => do
          let (items, rest) ← items? bound depth rest
          some (.array items, rest)
      | '\x7b' :: rest, depth + 1 => do
          let (assignments, rest) ← assignments? bound depth rest
          let entries ← inlineEntries? assignments
          some (.table entries, rest)
      | '[' :: _, 0 => none
      | '\x7b' :: _, 0 => none
      | cs, _ => leaf cs

/-- The items of an array up to its closing bracket, and what follows it. -/
def items? : (bound depth : Nat) → List Char → Option (List Value × List Char)
  | 0, _, _ => none
  | bound + 1, depth, cs => do
      match ← skipFiller false cs with
      | ']' :: rest => some ([], rest)
      | cs => do
          let (v, rest) ← value? bound depth cs
          match ← skipFiller false rest with
          | ',' :: rest => do
              let (vs, rest) ← items? bound depth rest
              some (v :: vs, rest)
          | ']' :: rest => some ([v], rest)
          | _ => none

/-- The assignments of an inline table up to its closing brace, and what follows it. -/
def assignments? : (bound depth : Nat) → List Char → Option (List (List String × Value) × List Char)
  | 0, _, _ => none
  | bound + 1, depth, cs => do
      match ← skipFiller false cs with
      | '\x7d' :: rest => some ([], rest)
      | cs => do
          let (path, rest) ← keyPath? cs
          match ← skipFiller false rest with
          | '=' :: rest => do
              let (v, rest) ← value? bound depth (← skipFiller false rest)
              match ← skipFiller false rest with
              | ',' :: rest => do
                  let (more, rest) ← assignments? bound depth rest
                  some ((path, v) :: more, rest)
              | '\x7d' :: rest => some ([(path, v)], rest)
              | _ => none
          | _ => none

end

end

/-- How deep arrays and inline tables may be nested. -/
def maxDepth : Nat := 80

end MeterGate.Toml
