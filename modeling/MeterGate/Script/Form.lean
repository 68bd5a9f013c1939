import MeterGate.Script.Closure
import MeterGate.StockFilter

set_option autoImplicit false

/-! # Filters in scripts

A script writes a filter as a `FilterForm`. A form may carry a name by which later forms mean the
very filter that was made of it, and may copy the list of a chain as it is at that time. Making a
filter therefore depends on the names and chains so far (`Scope`), and gives limiters their places
in the store. -/

namespace MeterGate.Script

/-- A filter as a script writes it. -/
inductive FilterForm where
  | commonTags (tags : List Tag)
  | renameTag (start fromKey toKey : String)
  | ignoreTags (keys : List String)
  | replaceTagValues (key : String) (replacement : Replacement) (exceptions : List String)
  | acceptIf (p : Predicate)
  | denyIf (p : Predicate)
  | denyUnless (p : Predicate)
  | acceptAll
  | denyAll
  | acceptNameStartsWith (start : String)
  | denyNameStartsWith (start : String)
  | denyUnlessNameStartsWith (start : String)
  | metricCap (max : Nat)
  | tagCap (limit : TagCap.Limit) (overflow : FilterForm)
  | maxExpectedTimer (start : String) (bound : Duration)
  | minExpectedTimer (start : String) (bound : Duration)
  | maxExpectedSummary (start : String) (bound : Binary64)
  | minExpectedSummary (start : String) (bound : Binary64)
  | mapClosure (edits : List Edit)
  | acceptClosure (rules : List (Predicate × Reply)) (otherwise : Reply)
  | configureClosure (condition : Option Predicate) (action : ConfigAction)
  | passThrough
  | boxed (inner : FilterForm)
  | chain (filters : List FilterForm)
  /-- The list of a chain, as it is when the form is read. -/
  | chainCopy (name : String)
  /-- The filter that a name means. -/
  | use (name : String)
  | watched (label : String) (inner : FilterForm)
  /-- A form whose filter gets a name. -/
  | named (name : String) (inner : FilterForm)

instance : Inhabited FilterForm := ⟨.passThrough⟩

/-- What a script has built so far: the store, the chains and the filters that have names, the
    latest first. -/
structure Scope where
  store : Store := {}
  chains : List (String × List StockFilter) := []
  named : List (String × StockFilter) := []

/-- A script that cannot be carried out: a name in it means nothing of the kind. -/
inductive ScriptFault where
  | unknownName (name : String)
deriving DecidableEq, Repr

/-- The latest meaning of a name. -/
def lookUp {α : Type} (name : String) (bindings : List (String × α)) : Except ScriptFault α :=
  match bindings.find? (·.1 == name) with
  | some (_, a) => .ok a
  | none => .error (.unknownName name)

namespace FilterForm

mutual

/-- The filter of a form, and the scope after it was made. -/
def make : FilterForm → Scope → Except ScriptFault (StockFilter × Scope)
  | commonTags tags, s => .ok (.commonTags tags, s)
  | renameTag start fromKey toKey, s => .ok (.renameTag start fromKey toKey, s)
  | ignoreTags keys, s => .ok (.ignoreTags keys, s)
  | replaceTagValues key replacement exceptions, s =>
      .ok (.replaceTagValues key (fun v => replacement.apply v) exceptions, s)
  | acceptIf p, s => .ok (.acceptIf fun id => p.holds id, s)
  | denyIf p, s => .ok (.denyIf fun id => p.holds id, s)
  | denyUnless p, s => .ok (.denyUnless fun id => p.holds id, s)
  | acceptAll, s => .ok (.acceptAll, s)
  | denyAll, s => .ok (.denyAll, s)
  | acceptNameStartsWith start, s => .ok (.acceptNameStartsWith start, s)
  | denyNameStartsWith start, s => .ok (.denyNameStartsWith start, s)
  | denyUnlessNameStartsWith start, s => .ok (.denyUnlessNameStartsWith start, s)
  | metricCap max, s =>
      let (place, store) := s.store.newMetricCap
      .ok (.metricCap place max, { s with store := store })
  | tagCap limit overflow, s => do
      let (overflow, s) ← overflow.make s
      let (place, store) := s.store.newTagCap
      .ok (.tagCap place limit overflow, { s with store := store })
  | maxExpectedTimer start bound, s => .ok (.maxExpectedTimer start bound, s)
  | minExpectedTimer start bound, s => .ok (.minExpectedTimer start bound, s)
  | maxExpectedSummary start bound, s => .ok (.maxExpectedSummary start bound, s)
  | minExpectedSummary start bound, s => .ok (.minExpectedSummary start bound, s)
  | mapClosure edits, s => .ok (.mapClosure (Edit.applyAll edits), s)
  | acceptClosure rules otherwise, s =>
      .ok (.acceptClosure fun id => Predicate.choose otherwise id rules, s)
  | configureClosure condition action, s =>
      .ok (.configureClosure (ConfigAction.applyWhen condition action), s)
  | passThrough, s => .ok (.passThrough, s)
  | boxed inner, s => do
      let (f, s) ← inner.make s
      .ok (.boxed f, s)
  | chain filters, s => do
      let (fs, s) ← makeAll filters s
      .ok (.chain fs, s)
  | chainCopy name, s => do
      let fs ← lookUp name s.chains
      .ok (.chain fs, s)
  | use name, s => do
      let f ← lookUp name s.named
      .ok (f, s)
  | watched label inner, s => do
      let (f, s) ← inner.make s
      .ok (.watched label f, s)
  | named name inner, s => do
      let (f, s) ← inner.make s
      .ok (f, { s with named := (name, f) :: s.named })

/-- The filters of a list of forms, made in order. -/
def makeAll : List FilterForm → Scope → Except ScriptFault (List StockFilter × Scope)
  | [], s => .ok ([], s)
  | form :: rest, s => do
      let (f, s) ← form.make s
      let (fs, s) ← makeAll rest s
      .ok (f :: fs, s)

end

end FilterForm

end MeterGate.Script
