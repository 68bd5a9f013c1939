import MeterGate.Toml.Item

set_option autoImplicit false

/-! # Documents

A document is a list of statements, one on a line: headers, which say where the assignments after
them go, and assignments. Reading it gives the entries of its root table, all keys in ascending
order, or nothing if the text is not a document. What it would be if its texts and scalars were read
in another way is `readWith?`. -/

namespace MeterGate.Toml

/-! ## Statements -/

/-- One statement of a document. -/
inductive Statement where
  /-- The header of a table. -/
  | table (path : List String)
  /-- The header of a further table of an array. -/
  | item (path : List String)
  /-- A value for a path, from the table of the last header. -/
  | assignment (path : List String) (v : Value)

/-- A statement, and what follows its line; `bound` is as for a value. -/
def statement? (leaf : Reader Value) (bound : Nat) : Reader Statement
  | '[' :: '[' :: cs => do
      let (path, cs) ← keyPath? (skipBlanks cs)
      match cs with
      | ']' :: ']' :: cs => some (.item path, ← endLine cs)
      | _ => none
  | '[' :: cs => do
      let (path, cs) ← keyPath? (skipBlanks cs)
      match cs with
      | ']' :: cs => some (.table path, ← endLine cs)
      | _ => none
  | cs => do
      let (path, cs) ← keyPath? cs
      match cs with
      | '=' :: cs => do
          let (v, cs) ← value? leaf bound maxDepth (skipBlanks cs)
          some (.assignment path v, ← endLine cs)
      | _ => none

/-- The statements of a text of fewer lines than `lines`. -/
def statementsWithin? (leaf : Reader Value) (bound : Nat) :
    (lines : Nat) → List Char → Option (List Statement)
  | 0, _ => none
  | lines + 1, cs => do
      match ← skipFiller false cs with
      | [] => some []
      | cs => do
          let (s, cs) ← statement? leaf bound cs
          let rest ← statementsWithin? leaf bound lines cs
          some (s :: rest)

/-- The statements of a text. A byte order mark at its beginning is passed over. -/
def statements? (leaf : Reader Value) (text : String) : Option (List Statement) :=
  let cs := match text.toList with
    | '\ufeff' :: cs => cs
    | cs => cs
  statementsWithin? leaf (2 * cs.length + 2) (cs.length + 1) cs

/-! ## From statements to tables -/

/-- Change the table that the last key of a path names, with a change that knows the key. -/
def alterLast (change : String → Change) (path : List String) (root : Entries) : Option Entries :=
  match path.reverse with
  | [] => none
  | key :: parents => alterAt false (change key) .header parents.reverse root

/-- Carry out statements in order, from the path of the last header and the root table so far. -/
def carryOut : List Statement → List String → Entries → Option Entries
  | [], _, root => some root
  | .table path :: rest, _, root => do carryOut rest path (← alterLast openTable path root)
  | .item path :: rest, _, root => do carryOut rest path (← alterLast openItem path root)
  | .assignment path v :: rest, header, root => do
      carryOut rest header (← alterAt false (assign path v) .header header root)

/-- The entries of the root table of a document, if `leaf` reads its texts and scalars. -/
def readWith? (leaf : Reader Value) (text : String) : Option (List (String × Value)) := do
  let statements ← statements? leaf text
  let root ← carryOut statements [] []
  some (entriesToValues root)

/-- The entries of the root table of a document. -/
def read? (text : String) : Option (List (String × Value)) := readWith? simpleValue? text

end MeterGate.Toml
