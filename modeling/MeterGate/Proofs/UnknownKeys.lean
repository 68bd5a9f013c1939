import MeterGate.Proofs.EntrySteps
import Mathlib.Algebra.Group.Int.Defs
import Mathlib.Logic.Relation

set_option autoImplicit false

/-! # Unknown keys

A key that a table has no use for may be added to it, at any place among the others, and with any
value whose numbers are in range. A document may have such additions in its root, in its
observability section, in its rules at any depth, and in the tags of these
(`ChainConfig.KeyAdded`). It is decoded as it was: to the same config if it was good, and with the
same fault if it was not (`ChainConfig.decode_keysAdded`). -/

namespace MeterGate

/-! ## Values in range -/

/-- A value all of whose integers are 64-bit words, signed or unsigned, and in which no numeral
    overflows. -/
inductive Value.InRange : Value → Prop where
  | integer {n : Int} : -2 ^ 63 ≤ n → n < 2 ^ 64 → InRange (.integer n)
  | real (x : Binary64) : InRange (.real x)
  | boolean (b : Bool) : InRange (.boolean b)
  | text (s : String) : InRange (.text s)
  | array {items : List Value} : (∀ v ∈ items, v.InRange) → InRange (.array items)
  | table {entries : List (String × Value)} : (∀ e ∈ entries, e.2.InRange) →
      InRange (.table entries)

/-- No number of a value in range is at fault for a judge that lets 64-bit words pass. -/
theorem Value.InRange.numberFault? {v : Value} (h : v.InRange) {judge : Int → Option DecodeFault}
    (lenient : ∀ n, isWord n = true → judge n = none) : v.numberFault? judge = none := by
  induction h with
  | integer low high => exact lenient _ ((isWord_iff _).2 ⟨low, high⟩)
  | real | boolean | text => rfl
  | array _ ih =>
      rw [Value.numberFault?, Value.itemsNumberFault?_eq]
      exact List.findSome?_eq_none_iff.2 ih
  | table _ ih =>
      rw [Value.numberFault?, Value.entriesNumberFault?_eq]
      exact List.findSome?_eq_none_iff.2 ih

theorem heldInteger?_of_isWord {n : Int} (h : isWord n = true) : heldInteger? n = none := by
  rw [heldInteger?, if_pos h]

theorem passedInteger?_of_isWord {n : Int} (h : isWord n = true) : passedInteger? n = none := by
  rw [isWord_iff] at h
  rw [passedInteger?, if_pos]
  simp only [isDoubleWord, Bool.and_eq_true, decide_eq_true_eq]
  omega

/-! ## Additions -/

/-- The keys from which a rule of some kind is read, next to `type`. -/
def RuleKind.keys : RuleKind → List String
  | .commonTags => ["tags"]
  | .renameTag => ["prefix", "from_key", "to_key"]
  | .ignoreTags => ["keys"]
  | .replaceTagValues => ["tag_key", "replacement", "exceptions"]
  | .accept | .deny => []
  | .acceptNameStartsWith | .denyNameStartsWith | .denyUnlessNameStartsWith => ["prefix"]
  | .maximumAllowableMetrics => ["max"]
  | .maximumAllowableTags => ["name", "tag_key", "max_values", "on_max_reached"]
  | .maxExpected | .minExpected => ["prefix", "meter_type", "millis", "value"]

/-- A tag's table, and the same with a key that it has no use for. -/
inductive Tag.KeyAdded : Value → Value → Prop where
  | intro {front back : List (String × Value)} {key : String} {v : Value} :
      key ∉ ["key", "value"] → v.InRange →
      KeyAdded (.table (front ++ back)) (.table (front ++ (key, v) :: back))

/-- A rule, and the same with a key added to its table, to that of one of its tags, or within the
    rule for its overflow. Around a table with a new key, rules may be tables or arrays. -/
inductive Rule.KeyAdded : Value → Value → Prop where
  | own {front back : List (String × Value)} {key : String} {v : Value} : key ≠ "type" →
      (∀ kind : RuleKind, ("type", .text kind.label) ∈ front ++ back → key ∉ kind.keys) →
      v.InRange → KeyAdded (.table (front ++ back)) (.table (front ++ (key, v) :: back))
  | ofTag {front back : List (String × Value)} {before after : List Value} {t t' : Value} :
      Tag.KeyAdded t t' →
      KeyAdded (.table (front ++ ("tags", .array (before ++ t :: after)) :: back))
        (.table (front ++ ("tags", .array (before ++ t' :: after)) :: back))
  | ofOverflow {front back : List (String × Value)} {v v' : Value} : KeyAdded v v' →
      KeyAdded (.table (front ++ ("on_max_reached", v) :: back))
        (.table (front ++ ("on_max_reached", v') :: back))
  | ofTagItem {before after rest : List Value} {t t' : Value} : Tag.KeyAdded t t' →
      KeyAdded (.array (.text "common_tags" :: .array (before ++ t :: after) :: rest))
        (.array (.text "common_tags" :: .array (before ++ t' :: after) :: rest))
  | ofOverflowItem {name key max v v' : Value} {rest : List Value} : KeyAdded v v' →
      KeyAdded (.array (.text "maximum_allowable_tags" :: name :: key :: max :: v :: rest))
        (.array (.text "maximum_allowable_tags" :: name :: key :: max :: v' :: rest))

/-- The root table of a document, and the same with a key added to it, to its observability section,
    or within one of its rules. -/
inductive ChainConfig.KeyAdded : List (String × Value) → List (String × Value) → Prop where
  | root {front back : List (String × Value)} {key : String} {v : Value} :
      key ∉ ["observability", "filters"] → v.InRange →
      KeyAdded (front ++ back) (front ++ (key, v) :: back)
  | observability {front back inner inner' : List (String × Value)} {key : String} {v : Value} :
      key ≠ "log_level" → v.InRange →
      KeyAdded (front ++ ("observability", .table (inner ++ inner')) :: back)
        (front ++ ("observability", .table (inner ++ (key, v) :: inner')) :: back)
  | rule {front back : List (String × Value)} {before after : List Value} {v v' : Value} :
      Rule.KeyAdded v v' →
      KeyAdded (front ++ ("filters", .array (before ++ v :: after)) :: back)
        (front ++ ("filters", .array (before ++ v' :: after)) :: back)

/-! ## Numbers around an addition -/

namespace Value

variable {judge : Int → Option DecodeFault} {v v' : Value}

theorem numberFault?_table_replace (h : v'.numberFault? judge = v.numberFault? judge)
    (front back : List (String × Value)) (key : String) :
    (table (front ++ (key, v') :: back)).numberFault? judge =
      (table (front ++ (key, v) :: back)).numberFault? judge := by
  simp only [numberFault?, entriesNumberFault?_eq, List.findSome?_append, List.findSome?_cons, h]

theorem numberFault?_table_skip (h : v.numberFault? judge = none)
    (front back : List (String × Value)) (key : String) :
    (table (front ++ (key, v) :: back)).numberFault? judge =
      (table (front ++ back)).numberFault? judge := by
  simp only [numberFault?, entriesNumberFault?_eq, List.findSome?_append, List.findSome?_cons, h]

theorem numberFault?_array_replace (h : v'.numberFault? judge = v.numberFault? judge)
    (front back : List Value) :
    (array (front ++ v' :: back)).numberFault? judge =
      (array (front ++ v :: back)).numberFault? judge := by
  simp only [numberFault?, itemsNumberFault?_eq, List.findSome?_append, List.findSome?_cons, h]

theorem asArrayOf_replace {α : Type} {read : Value → Except DecodeFault α}
    (h : read v' = read v) (front back : List Value) :
    (array (front ++ v' :: back)).asArrayOf read = (array (front ++ v :: back)).asArrayOf read := by
  simp only [asArrayOf, eachOf_eq_mapM, List.mapM_append, List.mapM_cons, h]

end Value

/-! ## Tags -/

theorem Tag.KeyAdded.asTag {v v' : Value} (added : KeyAdded v v') : v'.asTag = v.asTag := by
  obtain ⟨foreign, -⟩ := added
  next front back key w =>
    simp only [List.mem_cons, List.not_mem_nil, or_false, not_or] at foreign
    have skipped : ∀ parts, Value.tagStep parts (key, w) = pure parts := by
      intro parts
      rw [Value.tagStep, if_neg foreign.1, if_neg foreign.2]
    simp only [Value.asTag, Value.tagParts_eq_foldlM, Value.foldlM_skip skipped]

theorem Tag.KeyAdded.numberFault? {v v' : Value} (added : KeyAdded v v') :
    v'.numberFault? heldInteger? = v.numberFault? heldInteger? := by
  obtain ⟨-, inRange⟩ := added
  exact Value.numberFault?_table_skip
    (inRange.numberFault? fun _ => heldInteger?_of_isWord) _ _ _

/-! ## Rules -/

namespace RuleKind

theorem keys_eq (kind : RuleKind) : kind.keys = kind.fields.map RuleField.label := by
  cases kind <;> rfl

/-- A key that a kind of rule has no use for names none of its fields. -/
theorem field?_eq_none {kind : RuleKind} {key : String} (h : key ∉ kind.keys) :
    kind.field? key = none := by
  rw [keys_eq] at h
  refine List.find?_eq_none.2 fun field listed same => h ?_
  rw [beq_iff_eq] at same
  exact List.mem_map.2 ⟨field, listed, same⟩

theorem eq_of_field?_label {kind : RuleKind} {field found : RuleField}
    (h : kind.field? field.label = some found) : found = field := by
  have same := List.find?_some h
  rw [beq_iff_eq] at same
  revert same
  cases found <;> cases field <;> decide

end RuleKind

theorem RuleDraft.readAll_replace {field : RuleField} {v v' : Value}
    (read : ∀ d : RuleDraft, d.readAny field v' = d.readAny field v)
    (before after : List (RuleField × Value)) (d : RuleDraft) :
    readAll (before ++ (field, v') :: after) d = readAll (before ++ (field, v) :: after) d := by
  simp only [readAll, List.foldlM_append, List.foldlM_cons, read]

namespace Value

/-- An entry of a rule may be replaced by one for the same field that holds the same numbers at
    fault and is read in the same way. -/
theorem asRule_replace (field : RuleField) {v v' : Value}
    (held : v'.numberFault? heldInteger? = v.numberFault? heldInteger?)
    (read : ∀ d : RuleDraft, d.readAny field v' = d.readAny field v)
    (front back : List (String × Value)) :
    asRule (table (front ++ (field.label, v') :: back)) =
      asRule (table (front ++ (field.label, v) :: back)) := by
  have same_kind : ∀ known,
      kindStep known (field.label, v') = kindStep known (field.label, v) := by
    intro known
    simp only [kindStep, if_neg field.label_ne_type, held]
  have same_fields : ∀ kind : RuleKind,
      RuleDraft.readAll (kind.given (front ++ (field.label, v') :: back)) {} =
        RuleDraft.readAll (kind.given (front ++ (field.label, v) :: back)) {} := by
    intro kind
    simp only [RuleKind.given, List.filterMap_append, List.filterMap_cons]
    cases known : kind.field? field.label with
    | none => rfl
    | some found =>
        obtain rfl := RuleKind.eq_of_field?_label known
        exact RuleDraft.readAll_replace read _ _ _
  simp only [asRule_table_eq, kindOfEntries_eq_foldlM, foldlM_replace same_kind, same_fields]

theorem asRule_array_replace {kind : RuleKind} {first last : List RuleField} {field : RuleField}
    (fields_eq : kind.fields = first ++ field :: last) {v v' : Value}
    (held : v'.numberFault? heldInteger? = v.numberFault? heldInteger?)
    (read : ∀ d : RuleDraft, d.readAny field v' = d.readAny field v)
    (front : List Value) (place : first.length = front.length) (back : List Value) :
    asRule (array (text kind.label :: (front ++ v' :: back))) =
      asRule (array (text kind.label :: (front ++ v :: back))) := by
  have same_items : itemsNumberFault? heldInteger? (front ++ v' :: back) =
      itemsNumberFault? heldInteger? (front ++ v :: back) := by
    simpa only [numberFault?] using numberFault?_array_replace held front back
  have same_fields : RuleDraft.readAll (kind.fields.zip (front ++ v' :: back)) {} =
      RuleDraft.readAll (kind.fields.zip (front ++ v :: back)) {} := by
    rw [fields_eq, List.zip_append place, List.zip_append place]
    exact RuleDraft.readAll_replace read _ _ _
  rw [asRule_array_eq, asRule_array_eq, same_items, same_fields, List.length_append,
    List.length_append, List.length_cons, List.length_cons]

theorem asRule_skip {front back : List (String × Value)} {key : String} {v : Value}
    (not_type : key ≠ "type")
    (foreign : ∀ kind : RuleKind, ("type", text kind.label) ∈ front ++ back → key ∉ kind.keys)
    (plain : v.Plain) :
    asRule (table (front ++ (key, v) :: back)) = asRule (table (front ++ back)) := by
  have skipped : ∀ known, kindStep known (key, v) = pure known := by
    intro known
    rw [kindStep, if_neg not_type, show v.numberFault? heldInteger? = none from plain]
    rfl
  have same_kind : kindOfEntries (front ++ (key, v) :: back) none =
      kindOfEntries (front ++ back) none := by
    rw [kindOfEntries_eq_foldlM, kindOfEntries_eq_foldlM, foldlM_skip skipped]
  rw [asRule_table_eq, asRule_table_eq, same_kind]
  cases found : kindOfEntries (front ++ back) none with
  | error fault => rfl
  | ok kind =>
      have listed : ("type", text kind.label) ∈ front ++ back := by
        rcases type_of_kindOfEntries found with known | listed
        · cases known
        · exact listed
      have no_field := RuleKind.field?_eq_none (foreign kind listed)
      have same_fields : kind.given (front ++ (key, v) :: back) = kind.given (front ++ back) := by
        simp only [RuleKind.given, List.filterMap_append, List.filterMap_cons, no_field,
          Option.map_none]
      exact congrArg (fun fields => RuleDraft.readAll fields {} >>= fun d => d.finish kind)
        same_fields

end Value

/-- Tags may be replaced by others that are read as they are, whatever has been read before. -/
theorem RuleDraft.readAny_tags_replace {t t' : Value} (h : t'.asTag = t.asTag)
    (before after : List Value) (d : RuleDraft) :
    d.readAny .tags (.array (before ++ t' :: after)) =
      d.readAny .tags (.array (before ++ t :: after)) := by
  simp only [readAny, read, Value.asArrayOf_replace h]

theorem RuleDraft.readAny_overflow_replace {v v' : Value} (h : v'.asRule = v.asRule)
    (d : RuleDraft) : d.readAny .overflow v' = d.readAny .overflow v := by
  simp only [readAny, h]

/-- A key that is added within a rule changes neither the rule nor the fault of its numbers. -/
theorem Rule.KeyAdded.inert {v v' : Value} (added : KeyAdded v v') :
    v'.asRule = v.asRule ∧ v'.numberFault? heldInteger? = v.numberFault? heldInteger? := by
  induction added with
  | own not_type foreign inRange =>
      have plain := inRange.numberFault? fun _ => heldInteger?_of_isWord
      exact ⟨Value.asRule_skip not_type foreign plain, Value.numberFault?_table_skip plain _ _ _⟩
  | @ofTag front back before after t t' added =>
      have held := Value.numberFault?_array_replace added.numberFault? before after
      have read := RuleDraft.readAny_tags_replace added.asTag before after
      exact ⟨Value.asRule_replace .tags held read _ _,
        Value.numberFault?_table_replace held _ _ _⟩
  | @ofOverflow front back v v' _ ih =>
      obtain ⟨same, held⟩ := ih
      exact ⟨Value.asRule_replace .overflow held (RuleDraft.readAny_overflow_replace same) _ _,
        Value.numberFault?_table_replace held _ _ _⟩
  | @ofTagItem before after rest t t' added =>
      have held := Value.numberFault?_array_replace added.numberFault? before after
      have read := RuleDraft.readAny_tags_replace added.asTag before after
      exact ⟨Value.asRule_array_replace (show RuleKind.commonTags.fields = [] ++ [.tags] from rfl)
          held read [] rfl rest,
        Value.numberFault?_array_replace held [.text "common_tags"] rest⟩
  | @ofOverflowItem name key max v v' rest _ ih =>
      obtain ⟨same, held⟩ := ih
      have fields_eq : RuleKind.maximumAllowableTags.fields =
          [.name, .limitedKey, .maxValues] ++ [.overflow] := rfl
      exact ⟨Value.asRule_array_replace fields_eq held (RuleDraft.readAny_overflow_replace same)
          [name, key, max] rfl rest,
        Value.numberFault?_array_replace held
          [.text "maximum_allowable_tags", name, key, max] rest⟩

/-! ## Configs -/

namespace ChainConfig

/-- A key that is added to a document does not change what the document is decoded to. -/
theorem decode_of_keyAdded {root root' : List (String × Value)} (added : KeyAdded root root') :
    decode root' = decode root := by
  rw [decode, decode, Value.configParts_eq_foldlM, Value.configParts_eq_foldlM]
  cases added with
  | @root front back key v foreign inRange =>
      simp only [List.mem_cons, List.not_mem_nil, or_false, not_or] at foreign
      have skipped : ∀ parts, Value.partsStep parts (key, v) = pure parts := by
        intro parts
        rw [Value.partsStep, if_neg foreign.2, if_neg foreign.1,
          inRange.numberFault? fun _ => passedInteger?_of_isWord]
        rfl
      rw [Value.foldlM_skip skipped]
  | @observability front back inner inner' key v foreign inRange =>
      have skipped : ∀ known, Value.levelStep known (key, v) = pure known := by
        intro known
        rw [Value.levelStep, if_neg foreign,
          inRange.numberFault? fun _ => passedInteger?_of_isWord]
        rfl
      have same_level : (Value.table (inner ++ (key, v) :: inner')).asObservability =
          (Value.table (inner ++ inner')).asObservability := by
        rw [Value.asObservability, Value.asObservability, Value.logLevelOfEntries_eq_foldlM,
          Value.logLevelOfEntries_eq_foldlM, Value.foldlM_skip skipped]
      rw [Value.foldlM_replace]
      intro parts
      simp only [Value.partsStep, same_level]
      rfl
  | rule added =>
      rw [Value.foldlM_replace]
      intro parts
      simp only [Value.partsStep, Value.asArrayOf_replace added.inert.1]
      rfl

/-- **Unknown keys are inert.** However many keys are added to a document that have no use where
    they stand, it is decoded to the same config, or with the same fault. In a rule, this goes for
    the fields of rules of other kinds, too. -/
theorem decode_keysAdded :
    (∀ root root' : List (String × Value), Relation.ReflTransGen KeyAdded root root' →
      decode root' = decode root) ∧
    ∀ (kind other : RuleKind) (key : String) (v : Value) (front back : List (String × Value)),
      (∀ named : RuleKind, ("type", .text named.label) ∈ front ++ back → named = kind) →
      key ∈ other.keys → key ∉ kind.keys → v.InRange →
      Rule.KeyAdded (.table (front ++ back)) (.table (front ++ (key, v) :: back)) := by
  constructor
  · intro root root' added
    induction added with
    | refl => rfl
    | tail _ last ih => rw [decode_of_keyAdded last, ih]
  · intro kind other key v front back only field foreign inRange
    have not_type : key ≠ "type" := by
      rintro rfl
      rw [RuleKind.keys_eq] at field
      obtain ⟨found, -, same⟩ := List.mem_map.1 field
      exact found.label_ne_type same
    refine .own not_type (fun named listed => ?_) inRange
    rw [only named listed]
    exact foreign

/-- A rule for an overflow, with a field of another kind of rule. -/
theorem decode_keysAdded_overflow :
    let limit (overflow : List (String × Value)) : List (String × Value) :=
      [("filters", .array [.table [("max_values", .integer 1), ("name", .text "m"),
        ("on_max_reached", .table overflow), ("tag_key", .text "k"),
        ("type", .text "maximum_allowable_tags")]])]
    let root := limit [("type", .text "deny")]
    let root' := limit [("max", .integer (-1)), ("type", .text "deny")]
    KeyAdded root root' ∧ decode root' = decode root ∧
      decode root = .ok { rules := [.maximumAllowableTags "m" "k" 1 .deny] } := by
  intro limit root root'
  have only : ∀ named : RuleKind,
      ("type", Value.text named.label) ∈ [("type", Value.text "deny")] → named = .deny := by
    intro named listed
    cases named with
    | deny => rfl
    | _ => simp [RuleKind.label] at listed
  have inner : Rule.KeyAdded (.table [("type", .text "deny")])
      (.table [("max", .integer (-1)), ("type", .text "deny")]) :=
    decode_keysAdded.2 .deny .maximumAllowableMetrics "max" (.integer (-1)) []
      [("type", .text "deny")] only (by decide) (by decide) (.integer (by decide) (by decide))
  have added : KeyAdded root root' :=
    @KeyAdded.rule [] [] [] [] _ _
      (@Rule.KeyAdded.ofOverflow [("max_values", .integer 1), ("name", .text "m")] _ _ _ inner)
  exact ⟨added, decode_keysAdded.1 root root' (.single added), rfl⟩

end ChainConfig

end MeterGate
