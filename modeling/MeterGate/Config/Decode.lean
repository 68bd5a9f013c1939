import MeterGate.Config.Field

set_option autoImplicit false

/-! # Decoding a config

A config is read off a document value. Tables are read entry by entry in the order given, unknown
keys are passed over, and the first fault ends the reading; fields that are missing are looked for
last. A record may also be written as the array of its fields.

A rule is read in two rounds. The first looks at all its entries: the `type` must name a kind, and
everything else, at any depth, must be built of 64-bit numbers. The second reads the fields of that
kind. Outside of rules an unknown key may hold any 128-bit integer. -/

namespace MeterGate

/-! ## Numbers that are looked at in passing -/

/-- The fault of an integer that is passed over. -/
def passedInteger? (n : Int) : Option DecodeFault :=
  if isDoubleWord n then none else some .integerOverflow

/-- The fault of an integer within a rule that is looked at in the first round. -/
def heldInteger? (n : Int) : Option DecodeFault :=
  if isWord n then none else some ((Value.integer n).mismatch .anything)

namespace Value

mutual

/-- The first number in a value that is at fault, by a judgement on integers. -/
def numberFault? (judge : Int → Option DecodeFault) : Value → Option DecodeFault
  | integer n => judge n
  | real _ | boolean _ | text _ => none
  | array items => itemsNumberFault? judge items
  | table entries => entriesNumberFault? judge entries
  | brokenInteger => some .integerOverflow
  | vastReal => some .realOverflow

/-- The first number in a list of values that is at fault. -/
def itemsNumberFault? (judge : Int → Option DecodeFault) : List Value → Option DecodeFault
  | [] => none
  | v :: rest => v.numberFault? judge <|> itemsNumberFault? judge rest

/-- The first number in the entries of a table that is at fault. -/
def entriesNumberFault? (judge : Int → Option DecodeFault) :
    List (String × Value) → Option DecodeFault
  | [] => none
  | (_, v) :: rest => v.numberFault? judge <|> entriesNumberFault? judge rest

end

/-- Nothing, or a fault. -/
def check : Option DecodeFault → Except DecodeFault Unit
  | none => .ok ()
  | some fault => .error fault

/-! ## The first round of a rule -/

/-- The kind that the value of `type` names. -/
def asRuleKind : Value → Except DecodeFault RuleKind
  | text s => asNameOf RuleKind.ofLabel? (RuleKind.all.map (·.label)) s
  | integer n =>
      if isUInt64 n && !isInt64 n then .error (.invalidValue (.integer n) .ruleKindIndex)
      else .error ((integer n).mismatch .ruleKind)
  | v => .error (v.mismatch .ruleKind)

/-- The kind of a rule's table: every entry is looked at in order, and one must be `type`. -/
def kindOfEntries : List (String × Value) → Option RuleKind → Except DecodeFault RuleKind
  | [], kind => required "type" kind
  | (k, v) :: rest, kind =>
      if k = "type" then do
        let kind ← v.asRuleKind
        kindOfEntries rest (some kind)
      else do
        check (v.numberFault? heldInteger?)
        kindOfEntries rest kind

/-! ## Rules -/

/-- The rule of an array that ends with some fields still to come: only exceptions may be left
    out. -/
def finishItems (kind : RuleKind) (length : Nat) (fields : List RuleField) (draft : RuleDraft) :
    Except DecodeFault Rule :=
  if fields.all (· == .exceptions) then draft.finish kind
  else .error (.tooShort length (.rule kind) kind.fields.length)

mutual

/-- A rule: a table with its `type` and fields, or an array of them. -/
def asRule : Value → Except DecodeFault Rule
  | table entries => do
      let kind ← kindOfEntries entries none
      let draft ← draftOfEntries kind entries {}
      draft.finish kind
  | array [] => .error (.missingField "type")
  | array (first :: items) => do
      let kind ← first.asRuleKind
      check (itemsNumberFault? heldInteger? items)
      draftOfItems kind items.length kind.fields items {}
  | v => .error (v.mismatch .rule)

/-- The fields of a kind among the entries of a table. -/
def draftOfEntries (kind : RuleKind) : List (String × Value) → RuleDraft →
    Except DecodeFault RuleDraft
  | [], draft => .ok draft
  | (k, v) :: rest, draft =>
      match kind.field? k with
      | none => draftOfEntries kind rest draft
      | some .overflow => do
          let rule ← v.asRule
          draftOfEntries kind rest { draft with overflow := some rule }
      | some field => do
          let draft ← draft.read field v
          draftOfEntries kind rest draft

/-- The rule whose remaining fields are given by the remaining items of an array of some length;
    nothing may follow the last field. -/
def draftOfItems (kind : RuleKind) (length : Nat) (fields : List RuleField) :
    List Value → RuleDraft → Except DecodeFault Rule
  | [], draft => finishItems kind length fields draft
  | v :: rest, draft =>
      match fields with
      | [] => .error (.tooLong length kind.fields.length)
      | .overflow :: fields => do
          let rule ← v.asRule
          draftOfItems kind length fields rest { draft with overflow := some rule }
      | field :: fields => do
          let draft ← draft.read field v
          draftOfItems kind length fields rest draft

end

/-! ## Configs -/

/-- The log level that the entries of a table give. -/
def logLevelOfEntries : List (String × Value) → Option String → Except DecodeFault (Option String)
  | [], level => .ok level
  | (k, v) :: rest, level =>
      if k = "log_level" then do
        let s ← v.asText
        logLevelOfEntries rest (some s)
      else do
        check (v.numberFault? passedInteger?)
        logLevelOfEntries rest level

/-- The log level of an observability section: a table, or an array whose first item it is. -/
def asObservability : Value → Except DecodeFault (Option String)
  | table entries => logLevelOfEntries entries none
  | array [] => .ok none
  | array (first :: _) => return some (← first.asText)
  | v => .error (v.mismatch .observability)

/-- The parts of a config that the entries of a table give. -/
def configParts : List (String × Value) → Option String × Option (List Rule) →
    Except DecodeFault (Option String × Option (List Rule))
  | [], parts => .ok parts
  | (k, v) :: rest, (level, rules) =>
      if k = "filters" then do
        let rules ← v.asArrayOf asRule
        configParts rest (level, some rules)
      else if k = "observability" then do
        let level ← v.asObservability
        configParts rest (level, rules)
      else do
        check (v.numberFault? passedInteger?)
        configParts rest (level, rules)

end Value

/-- The config that the root table of a document describes. -/
def ChainConfig.decode (root : List (String × Value)) : Except DecodeFault ChainConfig := do
  let (level, rules) ← Value.configParts root (none, none)
  return ⟨level.getD "info", rules.getD []⟩

/-- What succeeds in two steps succeeds in each of them. -/
theorem ok_of_bind_ok {ε α β : Type} {x : Except ε α} {f : α → Except ε β} {b : β}
    (ran : (x >>= f) = .ok b) : ∃ a, x = .ok a ∧ f a = .ok b := by
  cases x with
  | ok a => exact ⟨a, rfl, ran⟩
  | error e => cases ran

end MeterGate
