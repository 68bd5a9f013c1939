import MeterGate.Config.DecodeFault

set_option autoImplicit false

/-! # Fields of rules

Which fields the rules of a kind have, in which order, and what each takes. The fields read so far
make a `RuleDraft`; once all of a kind are there, the draft is a rule (`RuleDraft.finish`). -/

namespace MeterGate

/-! ## Fields -/

/-- A field of some kind of rule. -/
inductive RuleField where
  | tags
  | start
  | fromKey
  | toKey
  | keys
  | limitedKey
  | replacement
  | exceptions
  | max
  | name
  | maxValues
  | overflow
  | meterType
  | millis
  | value
deriving DecidableEq, Repr

/-- The key of a field in a document. -/
def RuleField.label : RuleField → String
  | .tags => "tags"
  | .start => "prefix"
  | .fromKey => "from_key"
  | .toKey => "to_key"
  | .keys => "keys"
  | .limitedKey => "tag_key"
  | .replacement => "replacement"
  | .exceptions => "exceptions"
  | .max => "max"
  | .name => "name"
  | .maxValues => "max_values"
  | .overflow => "on_max_reached"
  | .meterType => "meter_type"
  | .millis => "millis"
  | .value => "value"

/-- The fields of a kind of rule, in the order in which an array lists them. -/
def RuleKind.fields : RuleKind → List RuleField
  | .commonTags => [.tags]
  | .renameTag => [.start, .fromKey, .toKey]
  | .ignoreTags => [.keys]
  | .replaceTagValues => [.limitedKey, .replacement, .exceptions]
  | .accept => []
  | .deny => []
  | .acceptNameStartsWith => [.start]
  | .denyNameStartsWith => [.start]
  | .denyUnlessNameStartsWith => [.start]
  | .maximumAllowableMetrics => [.max]
  | .maximumAllowableTags => [.name, .limitedKey, .maxValues, .overflow]
  | .maxExpected => [.start, .meterType, .millis, .value]
  | .minExpected => [.start, .meterType, .millis, .value]

/-- The field of a kind that a key names, if there is one. -/
def RuleKind.field? (kind : RuleKind) (key : String) : Option RuleField :=
  kind.fields.find? (·.label == key)

/-! ## What fields take -/

namespace Value

/-- A text. -/
def asText : Value → Except DecodeFault String
  | text s => .ok s
  | v => .error (v.mismatch .text)

/-- Each item of a list, in order; the first fault ends it. -/
def eachOf {α : Type} (read : Value → Except DecodeFault α) :
    List Value → Except DecodeFault (List α)
  | [] => .ok []
  | v :: rest => do
      let a ← read v
      let as ← eachOf read rest
      .ok (a :: as)

/-- An array of one kind of items. -/
def asArrayOf {α : Type} (read : Value → Except DecodeFault α) : Value → Except DecodeFault (List α)
  | array items => eachOf read items
  | v => .error (v.mismatch .sequence)

/-- An unsigned 64-bit word; a negative integer has the right type and no place in it. -/
def asWord (wanted : Wanted) : Value → Except DecodeFault UInt64
  | integer n =>
      if isUInt64 n then .ok (.ofNat n.toNat)
      else if isInt64 n then .error (.invalidValue (.integer n) wanted)
      else .error ((integer n).mismatch wanted)
  | v => .error (v.mismatch wanted)

/-- A double; an integer of 64 bits is rounded to the nearest one. -/
def asReal : Value → Except DecodeFault Binary64
  | real x => .ok x
  | integer n =>
      if isWord n then .ok (.ofInt n) else .error ((integer n).mismatch .real)
  | v => .error (v.mismatch .real)

/-- A name from a list of known ones. -/
def asNameOf {α : Type} (ofName? : String → Option α) (known : List String) (s : String) :
    Except DecodeFault α :=
  match ofName? s with
  | some a => .ok a
  | none => .error (.unknownVariant s known)

/-- A meter type: its name, or a table whose one key is its name and has an empty table. -/
def asMeterType : Value → Except DecodeFault MeterType
  | text s => asNameOf MeterType.ofLabel? (MeterType.all.map (·.label)) s
  | table [(name, v)] => do
      let t ← asNameOf MeterType.ofLabel? (MeterType.all.map (·.label)) name
      match v with
      | table [] => .ok t
      | _ => .error (v.mismatch .emptyTable)
  | table _ => .error (.invalidValue .map .singleKey)
  | v => .error (v.mismatch .meterType)

/-- The key and the value of a tag, as far as the entries of a table give them. -/
def tagParts : List (String × Value) → Option String × Option String →
    Except DecodeFault (Option String × Option String)
  | [], parts => .ok parts
  | (k, v) :: rest, (key, value) =>
      if k = "key" then do
        let s ← v.asText
        tagParts rest (some s, value)
      else if k = "value" then do
        let s ← v.asText
        tagParts rest (key, some s)
      else tagParts rest (key, value)

/-- A field that must be there. -/
def required {α : Type} (name : String) : Option α → Except DecodeFault α
  | some a => .ok a
  | none => .error (.missingField name)

/-- A tag: a table with `key` and `value`, or an array of the two. -/
def asTag : Value → Except DecodeFault Tag
  | table entries => do
      let (key, value) ← tagParts entries (none, none)
      let key ← required "key" key
      let value ← required "value" value
      .ok ⟨key, value⟩
  | array items =>
      match items with
      | [] => .error (.tooShort 0 .tag 2)
      | [k] => do
          let _ ← k.asText
          .error (.tooShort 1 .tag 2)
      | k :: v :: rest => do
          let key ← k.asText
          let value ← v.asText
          if rest.isEmpty then .ok ⟨key, value⟩
          else .error (.tooLong (rest.length + 2) 2)
  | v => .error (v.mismatch .tag)

end Value

/-! ## Drafts -/

/-- The fields of a rule that have been read. -/
structure RuleDraft where
  tags : Option (List Tag) := none
  start : Option String := none
  fromKey : Option String := none
  toKey : Option String := none
  keys : Option (List String) := none
  limitedKey : Option String := none
  replacement : Option String := none
  exceptions : Option (List String) := none
  max : Option UInt64 := none
  name : Option String := none
  maxValues : Option UInt64 := none
  overflow : Option Rule := none
  meterType : Option MeterType := none
  millis : Option UInt64 := none
  value : Option Binary64 := none
deriving Repr, Inhabited

namespace RuleDraft

/-- Read a field other than the overflow rule. -/
def read (d : RuleDraft) (field : RuleField) (v : Value) : Except DecodeFault RuleDraft :=
  match field with
  | .tags => return { d with tags := some (← v.asArrayOf Value.asTag) }
  | .start => return { d with start := some (← v.asText) }
  | .fromKey => return { d with fromKey := some (← v.asText) }
  | .toKey => return { d with toKey := some (← v.asText) }
  | .keys => return { d with keys := some (← v.asArrayOf Value.asText) }
  | .limitedKey => return { d with limitedKey := some (← v.asText) }
  | .replacement => return { d with replacement := some (← v.asText) }
  | .exceptions => return { d with exceptions := some (← v.asArrayOf Value.asText) }
  | .max => return { d with max := some (← v.asWord .size) }
  | .name => return { d with name := some (← v.asText) }
  | .maxValues => return { d with maxValues := some (← v.asWord .size) }
  | .meterType => return { d with meterType := some (← v.asMeterType) }
  | .millis => return { d with millis := some (← v.asWord .word) }
  | .value => return { d with value := some (← v.asReal) }
  | .overflow => return d

/-- A field that must have been read. -/
def need {α : Type} (field : RuleField) (a : Option α) : Except DecodeFault α :=
  Value.required field.label a

/-- The bound that a draft describes. -/
def bound (d : RuleDraft) : Except DecodeFault ExpectedBound := do
  let start ← need .start d.start
  let type ← need .meterType d.meterType
  return ⟨start, type, d.millis, d.value⟩

/-- The rule of a kind that a draft describes; the first field that is missing is reported. -/
def finish (d : RuleDraft) : RuleKind → Except DecodeFault Rule
  | .commonTags => return .commonTags (← need .tags d.tags)
  | .renameTag => do
      let start ← need .start d.start
      let fromKey ← need .fromKey d.fromKey
      let toKey ← need .toKey d.toKey
      return .renameTag start fromKey toKey
  | .ignoreTags => return .ignoreTags (← need .keys d.keys)
  | .replaceTagValues => do
      let key ← need .limitedKey d.limitedKey
      let replacement ← need .replacement d.replacement
      return .replaceTagValues key replacement (d.exceptions.getD [])
  | .accept => return .accept
  | .deny => return .deny
  | .acceptNameStartsWith => return .acceptNameStartsWith (← need .start d.start)
  | .denyNameStartsWith => return .denyNameStartsWith (← need .start d.start)
  | .denyUnlessNameStartsWith => return .denyUnlessNameStartsWith (← need .start d.start)
  | .maximumAllowableMetrics => return .maximumAllowableMetrics (← need .max d.max)
  | .maximumAllowableTags => do
      let name ← need .name d.name
      let key ← need .limitedKey d.limitedKey
      let max ← need .maxValues d.maxValues
      let overflow ← need .overflow d.overflow
      return .maximumAllowableTags name key max overflow
  | .maxExpected => return .maxExpected (← d.bound)
  | .minExpected => return .minExpected (← d.bound)

end RuleDraft

end MeterGate
