import MeterGate.Value

set_option autoImplicit false

/-! # Putting tables together

A document fills its tables piece by piece: by headers, which open a table or a further table of an
array, and by assignments to paths of keys. How a table came about decides what may still be added
to it: a header may open a table that other headers only implied, a path may go on in tables that
paths made, and nothing is ever given twice. Entries are kept in ascending order of their keys. -/

namespace MeterGate.Toml

/-- How a table came about. -/
inductive Origin where
  /-- By its own header; the root counts as such. -/
  | header
  /-- As a step on the way to the table of a header. -/
  | implied
  /-- As a step on the way of an assignment. -/
  | dotted
deriving DecidableEq, Repr

/-- What a key holds while its document is read. -/
inductive Node where
  /-- A value that is complete, inline tables and arrays included. -/
  | value (v : Value)
  /-- A table that may grow. -/
  | table (origin : Origin) (entries : List (String × Node))
  /-- The tables of an array: the last one, which may grow, and those before it, backwards. -/
  | tables (last : List (String × Node)) (before : List (List (String × Node)))

/-- The entries of a table, in ascending order of keys. -/
abbrev Entries := List (String × Node)

namespace Entries

/-- What a key holds. -/
def get? (entries : Entries) (key : String) : Option Node :=
  (entries.find? (·.1 == key)).map (·.2)

/-- The entries with a key set. -/
def put (key : String) (node : Node) : Entries → Entries
  | [] => [(key, node)]
  | (k, n) :: rest =>
      if key = k then (k, node) :: rest
      else if key < k then (key, node) :: (k, n) :: rest
      else (k, n) :: put key node rest

end Entries

/-- A change to the entries of a table that may depend on how the table came about. -/
abbrev Change := Origin → Entries → Option Entries

/-- Make a change at the end of a path. Tables missing on the way are made; `dotted` says whether
    the path is that of an assignment, which may not enter tables that have a header. In an array of
    tables the way goes through the last one. -/
def alterAt (dotted : Bool) (change : Change) : Origin → List String → Entries → Option Entries
  | origin, [], entries => change origin entries
  | _, key :: path, entries =>
      match entries.get? key with
      | none => do
          let origin := if dotted then Origin.dotted else Origin.implied
          let inner ← alterAt dotted change origin path []
          some (entries.put key (.table origin inner))
      | some (.table origin inner) =>
          if dotted && origin = .header then none
          else do
            let inner ← alterAt dotted change origin path inner
            some (entries.put key (.table origin inner))
      | some (.tables last before) => do
          let last ← alterAt dotted change .header path last
          some (entries.put key (.tables last before))
      | some (.value _) => none

/-- Set a key that is not set yet. A key at the end of a longer path needs a table that was made by
    paths, and a key on its own one that was not. -/
def setKey (onPath : Bool) (key : String) (v : Value) : Change := fun origin entries =>
  if (origin == .dotted) == onPath then
    match entries.get? key with
    | none => some (entries.put key (.value v))
    | some _ => none
  else none

/-- The entries with a value assigned to a path. -/
def assign (path : List String) (v : Value) : Change := fun origin entries =>
  match path.reverse with
  | [] => none
  | key :: parents =>
      alterAt true (setKey (!parents.isEmpty) key v) origin parents.reverse entries

/-- Open the table of a header: a new one, or one that was only implied. -/
def openTable (key : String) : Change := fun _ entries =>
  match entries.get? key with
  | none => some (entries.put key (.table .header []))
  | some (.table .implied inner) => some (entries.put key (.table .header inner))
  | some _ => none

/-- Open a further table of an array of tables. -/
def openItem (key : String) : Change := fun _ entries =>
  match entries.get? key with
  | none => some (entries.put key (.tables [] []))
  | some (.tables last before) => some (entries.put key (.tables [] (last :: before)))
  | some _ => none

/-! ## Values of finished tables -/

mutual

/-- The value of a node. -/
def Node.toValue : Node → Value
  | .value v => v
  | .table _ entries => .table (entriesToValues entries)
  | .tables last before =>
      .array ((tablesToValues before).reverse ++ [.table (entriesToValues last)])

/-- The entries of a table, as values. -/
def entriesToValues : List (String × Node) → List (String × Value)
  | [] => []
  | (key, node) :: rest => (key, node.toValue) :: entriesToValues rest

/-- A list of tables, as values. -/
def tablesToValues : List (List (String × Node)) → List Value
  | [] => []
  | entries :: rest => .table (entriesToValues entries) :: tablesToValues rest

end

/-- The entries of an inline table: its assignments made in order. -/
def inlineEntries? (assignments : List (List String × Value)) :
    Option (List (String × Value)) := do
  let entries ← assignments.foldlM (fun entries (path, v) => assign path v .header entries) []
  some (entriesToValues entries)

end MeterGate.Toml
