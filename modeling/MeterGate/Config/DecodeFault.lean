import MeterGate.Binary64.Shortest
import MeterGate.Config.Rule
import MeterGate.Text.Quoted
import MeterGate.Value

set_option autoImplicit false

/-! # Faults of decoding

Why a document is not a config: what was found, what was wanted, and the one text that says so. -/

namespace MeterGate

/-! ## What was found -/

/-- A value as messages show it: scalars with their content, the others by their form. -/
inductive Found where
  | integer (n : Int)
  | real (x : Binary64)
  | boolean (b : Bool)
  | text (s : String)
  | sequence
  | map
deriving DecidableEq, Repr

/-- Text in backticks. -/
def backticked (s : String) : String := "`" ++ s ++ "`"

/-- The words for a value; an integer that is no 64-bit word is named with its width. -/
def Found.label : Found → String
  | .integer n =>
      "integer " ++ backticked (toString n)
        ++ if isWord n then "" else if isInt128 n then " as i128" else " as u128"
  | .real x => "floating point " ++ backticked x.pointedText
  | .boolean b => "boolean " ++ backticked (if b then "true" else "false")
  | .text s => "string " ++ Quoted.encode s
  | .sequence => "sequence"
  | .map => "map"

/-! ## What was wanted -/

/-- What a place of a config takes. -/
inductive Wanted where
  | text
  | sequence
  | size
  | word
  | real
  | ruleKind
  | ruleKindIndex
  | meterType
  | singleKey
  | emptyTable
  | anything
  | rule
  | tag
  | observability
deriving DecidableEq, Repr

/-- The words for what was wanted. -/
def Wanted.label : Wanted → String
  | .text => "a string"
  | .sequence => "a sequence"
  | .size => "usize"
  | .word => "u64"
  | .real => "f64"
  | .ruleKind => "variant identifier"
  | .ruleKindIndex => "variant index 0 <= i < " ++ toString RuleKind.all.length
  | .meterType => "string or map"
  | .singleKey => "map with a single key"
  | .emptyTable => "unit"
  | .anything => "any value"
  | .rule => "internally tagged enum FilterRule"
  | .tag => "struct TagEntry"
  | .observability => "struct ObservabilityConfig"

/-- A record that may be written as an array of its fields. -/
inductive Positional where
  | tag
  | rule (kind : RuleKind)
deriving DecidableEq, Repr

/-- The words for a record written as an array. -/
def Positional.label : Positional → String
  | .tag => "struct TagEntry"
  | .rule kind =>
      match kind with
      | .commonTags => "struct variant FilterRule::CommonTags"
      | .renameTag => "struct variant FilterRule::RenameTag"
      | .ignoreTags => "struct variant FilterRule::IgnoreTags"
      | .replaceTagValues => "struct variant FilterRule::ReplaceTagValues"
      | .accept => "unit variant FilterRule::Accept"
      | .deny => "unit variant FilterRule::Deny"
      | .acceptNameStartsWith => "struct variant FilterRule::AcceptNameStartsWith"
      | .denyNameStartsWith => "struct variant FilterRule::DenyNameStartsWith"
      | .denyUnlessNameStartsWith => "struct variant FilterRule::DenyUnlessNameStartsWith"
      | .maximumAllowableMetrics => "struct variant FilterRule::MaximumAllowableMetrics"
      | .maximumAllowableTags => "struct variant FilterRule::MaximumAllowableTags"
      | .maxExpected | .minExpected => "struct ExpectedBoundRule"

/-- A number of elements, in words. -/
def elements (n : Nat) : String := toString n ++ if n = 1 then " element" else " elements"

/-! ## Faults -/

/-- Why a value does not decode. -/
inductive DecodeFault where
  | missingField (name : String)
  | unknownVariant (found : String) (known : List String)
  | invalidType (found : Found) (wanted : Wanted)
  | invalidValue (found : Found) (wanted : Wanted)
  /-- An array ends before all fields of a record are given. -/
  | tooShort (length : Nat) (record : Positional) (fields : Nat)
  /-- An array goes on after the last field of a record. -/
  | tooLong (length fields : Nat)
  | integerOverflow
  | realOverflow
deriving DecidableEq, Repr

/-- The words of a fault. -/
def DecodeFault.message : DecodeFault → String
  | .missingField name => "missing field " ++ backticked name
  | .unknownVariant found known =>
      "unknown variant " ++ backticked found ++ ", expected one of "
        ++ ", ".intercalate (known.map backticked)
  | .invalidType found wanted => "invalid type: " ++ found.label ++ ", expected " ++ wanted.label
  | .invalidValue found wanted => "invalid value: " ++ found.label ++ ", expected " ++ wanted.label
  | .tooShort length record fields =>
      "invalid length " ++ toString length ++ ", expected " ++ record.label ++ " with "
        ++ elements fields
  | .tooLong length fields =>
      "invalid length " ++ toString length ++ ", expected " ++ elements fields ++ " in sequence"
  | .integerOverflow => "integer number overflowed"
  | .realOverflow => "floating-point number overflowed"

namespace Value

/-- The fault of a value that stands where something else is wanted; a numeral that names no number
    is at fault wherever it stands. -/
def mismatch (wanted : Wanted) : Value → DecodeFault
  | integer n =>
      if isDoubleWord n then .invalidType (.integer n) wanted else .integerOverflow
  | real x => .invalidType (.real x) wanted
  | boolean b => .invalidType (.boolean b) wanted
  | text s => .invalidType (.text s) wanted
  | array _ => .invalidType .sequence wanted
  | table _ => .invalidType .map wanted
  | brokenInteger => .integerOverflow
  | vastReal => .realOverflow

end Value

end MeterGate
