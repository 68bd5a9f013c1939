import MeterGate.Config.Decode
import MeterGate.Proofs.Spelling

set_option autoImplicit false

/-! # Reading the fields of a rule

What spells a scalar, a list or a tag is read as it (`ReadsAs`), and passes the first round of a
rule, as its numbers are words (`Value.Plain`).

The fields of a rule make a draft (`Rule.draft`), and they are those of its kind (`Rule.forms_eq`).
After some of them have been read, in whatever order, what there is of the rule is its draft with
the others still missing (`RuleDraft.only`); to read another field adds this one
(`RuleDraft.readAny_of_spelled`). -/

namespace MeterGate

/-! ## Reading what is spelled -/

/-- Every number in a value is a 64-bit word, so the first round of a rule passes over it. -/
def Value.Plain (v : Value) : Prop := v.numberFault? heldInteger? = none

/-- Whatever spells a thing is read as it, and may stand in a rule. -/
def ReadsAs {α : Type} (read : Value → Except DecodeFault α) (spelled : Value → Prop) (a : α) :
    Prop :=
  ∀ v, spelled v → read v = .ok a ∧ v.Plain

namespace Value

theorem plain_integer {n : Int} (h : isWord n = true) : (integer n).Plain := by
  rw [Plain, numberFault?, heldInteger?, if_pos h]

/-- The first number at fault in a list of values is the one of the first value that has one. -/
theorem itemsNumberFault?_eq (judge : Int → Option DecodeFault) (items : List Value) :
    itemsNumberFault? judge items = items.findSome? (numberFault? judge) := by
  induction items with
  | nil => rfl
  | cons v rest ih =>
      rw [itemsNumberFault?, ih, List.findSome?_cons]
      cases v.numberFault? judge <;> rfl

theorem entriesNumberFault?_eq (judge : Int → Option DecodeFault)
    (entries : List (String × Value)) :
    entriesNumberFault? judge entries = entries.findSome? fun e => e.2.numberFault? judge := by
  induction entries with
  | nil => rfl
  | cons e rest ih =>
      rw [entriesNumberFault?, ih, List.findSome?_cons]
      cases e.2.numberFault? judge <;> rfl

theorem plain_array {items : List Value} (h : ∀ v ∈ items, v.Plain) : (array items).Plain := by
  rw [Plain, numberFault?, itemsNumberFault?_eq]
  exact List.findSome?_eq_none_iff.2 h

theorem plain_table {entries : List (String × Value)} (h : ∀ e ∈ entries, e.2.Plain) :
    (table entries).Plain := by
  rw [Plain, numberFault?, entriesNumberFault?_eq]
  exact List.findSome?_eq_none_iff.2 h

end Value

theorem isUInt64_toNat (n : UInt64) : isUInt64 n.toNat = true := by
  have small := n.toNat_lt
  simp only [isUInt64, Bool.and_eq_true, decide_eq_true_eq]
  omega

theorem readsAs_text (s : String) : ReadsAs Value.asText (Spells.text s) s := by
  rintro v rfl
  exact ⟨rfl, rfl⟩

theorem readsAs_word (wanted : Wanted) (n : UInt64) :
    ReadsAs (Value.asWord wanted) (Spells.word n) n := by
  rintro v rfl
  have small := isUInt64_toNat n
  refine ⟨?_, Value.plain_integer ?_⟩
  · rw [Value.asWord, if_pos small, Int.toNat_natCast, UInt64.ofNat_toNat]
  · rw [isWord, small, Bool.or_true]

theorem readsAs_real (x : Binary64) : ReadsAs Value.asReal (Spells.real x) x := by
  rintro v (rfl | ⟨n, small, rfl, rfl⟩)
  · exact ⟨rfl, rfl⟩
  · refine ⟨?_, Value.plain_integer small⟩
    rw [Value.asReal, if_pos small]

theorem readsAs_meterType (t : MeterType) : ReadsAs Value.asMeterType (Spells.text t.label) t := by
  rintro v rfl
  refine ⟨?_, rfl⟩
  rw [Value.asMeterType, Value.asNameOf, MeterType.ofLabel?_label]

theorem readsAs_list {α : Type} {read : Value → Except DecodeFault α} {spells : α → Value → Prop}
    {as : List α} (each : ∀ a ∈ as, ReadsAs read (spells a) a) :
    ReadsAs (Value.asArrayOf read) (Spells.list spells as) as := by
  rintro v ⟨items, rfl, spelled⟩
  suffices Value.eachOf read items = .ok as ∧ ∀ v ∈ items, v.Plain from
    ⟨this.1, Value.plain_array this.2⟩
  induction spelled with
  | nil => exact ⟨rfl, by simp⟩
  | @cons a v as items own _ ih =>
      obtain ⟨first, rest⟩ := List.forall_mem_cons.1 each
      obtain ⟨read_first, plain_first⟩ := first v own
      obtain ⟨read_rest, plain_rest⟩ := ih rest
      refine ⟨?_, List.forall_mem_cons.2 ⟨plain_first, plain_rest⟩⟩
      rw [Value.eachOf, read_first, read_rest]
      rfl

theorem plain_of_forall₂ {forms : List FieldForm} {items : List Value}
    (spelled : List.Forall₂ FieldForm.Spelled forms items)
    (each : ∀ form ∈ forms, ∀ v, form.Spelled v → v.Plain) : ∀ v ∈ items, v.Plain := by
  induction spelled with
  | nil => simp
  | @cons form v forms items own _ ih =>
      obtain ⟨first, rest⟩ := List.forall_mem_cons.1 each
      exact List.forall_mem_cons.2 ⟨first v own, ih rest⟩

theorem Record.plain {forms : List FieldForm} {v : Value} (spelled : Record forms v)
    (each : ∀ form ∈ forms, ∀ v, form.Spelled v → v.Plain) : v.Plain := by
  cases spelled with
  | table written =>
      refine Value.plain_table fun e listed => ?_
      obtain ⟨form, mem, -, own⟩ := written.exists_form e listed
      exact each form mem _ own
  | array written => exact Value.plain_array (plain_of_forall₂ written each)

/-! ## Tags -/

/-- The last key and the last value that the entries of a tag give. -/
theorem tagParts_of_entries {t : Tag} {entries : List (String × Value)}
    (each : ∀ e ∈ entries, e = ("key", .text t.key) ∨ e = ("value", .text t.value))
    (key value : Option String) :
    Value.tagParts entries (key, value) =
      .ok (if "key" ∈ entries.map Prod.fst then some t.key else key,
        if "value" ∈ entries.map Prod.fst then some t.value else value) := by
  induction entries generalizing key value with
  | nil => simp [Value.tagParts]
  | cons e rest ih =>
      obtain ⟨first, rest⟩ := List.forall_mem_cons.1 each
      rcases first with rfl | rfl
      · refine (ih rest (some t.key) value).trans ?_
        simp only [List.map_cons, List.mem_cons, String.reduceEq, true_or, false_or, if_true,
          ite_self]
      · refine (ih rest key (some t.value)).trans ?_
        simp only [List.map_cons, List.mem_cons, String.reduceEq, true_or, false_or, if_true,
          ite_self]

theorem readsAs_tag (t : Tag) : ReadsAs Value.asTag t.Spelled t := by
  intro v spelled
  refine ⟨?_, spelled.plain ?_⟩
  · cases spelled with
    | @table entries written =>
        have each : ∀ e ∈ entries, e = ("key", .text t.key) ∨ e = ("value", .text t.value) := by
          intro e listed
          obtain ⟨form, mem, key, own⟩ := written.exists_form e listed
          simp only [List.mem_cons, List.not_mem_nil, or_false] at mem
          rcases mem with rfl | rfl
          · exact .inl (Prod.ext key own)
          · exact .inr (Prod.ext key own)
        have has_key : "key" ∈ entries.map Prod.fst := by
          rcases written.written_or_omissible List.mem_cons_self with has | ⟨⟨⟩⟩
          exact has
        have has_value : "value" ∈ entries.map Prod.fst := by
          rcases written.written_or_omissible
            (List.mem_cons_of_mem _ List.mem_cons_self) with has | ⟨⟨⟩⟩
          exact has
        rw [Value.asTag, tagParts_of_entries each, if_pos has_key, if_pos has_value]
        rfl
    | array written =>
        cases written with
        | cons key written =>
            cases written with
            | cons value written =>
                cases written
                cases key
                cases value
                rfl
  · intro form mem v own
    simp only [List.mem_cons, List.not_mem_nil, or_false] at mem
    rcases mem with rfl | rfl
    · exact (readsAs_text _ v own).2
    · exact (readsAs_text _ v own).2

/-! ## Drafts -/

/-- What the fields of a rule say. -/
def Rule.draft : Rule → RuleDraft
  | .commonTags tags => { tags := some tags }
  | .renameTag start fromKey toKey =>
      { start := some start, fromKey := some fromKey, toKey := some toKey }
  | .ignoreTags keys => { keys := some keys }
  | .replaceTagValues key replacement exceptions =>
      { limitedKey := some key, replacement := some replacement, exceptions := some exceptions }
  | .accept | .deny => {}
  | .acceptNameStartsWith start | .denyNameStartsWith start | .denyUnlessNameStartsWith start =>
      { start := some start }
  | .maximumAllowableMetrics max => { max := some max }
  | .maximumAllowableTags name key max overflow =>
      { name := some name, limitedKey := some key, maxValues := some max,
        overflow := some overflow }
  | .maxExpected b | .minExpected b =>
      { start := some b.start, meterType := some b.type, millis := b.millis, value := b.value }

namespace RuleDraft

/-- A draft of which only some fields have been read. -/
def only (d : RuleDraft) (fields : List RuleField) : RuleDraft where
  tags := if .tags ∈ fields then d.tags else none
  start := if .start ∈ fields then d.start else none
  fromKey := if .fromKey ∈ fields then d.fromKey else none
  toKey := if .toKey ∈ fields then d.toKey else none
  keys := if .keys ∈ fields then d.keys else none
  limitedKey := if .limitedKey ∈ fields then d.limitedKey else none
  replacement := if .replacement ∈ fields then d.replacement else none
  exceptions := if .exceptions ∈ fields then d.exceptions else none
  max := if .max ∈ fields then d.max else none
  name := if .name ∈ fields then d.name else none
  maxValues := if .maxValues ∈ fields then d.maxValues else none
  overflow := if .overflow ∈ fields then d.overflow else none
  meterType := if .meterType ∈ fields then d.meterType else none
  millis := if .millis ∈ fields then d.millis else none
  value := if .value ∈ fields then d.value else none

/-- Read a field, the overflow rule included. -/
def readAny (d : RuleDraft) (field : RuleField) (v : Value) : Except DecodeFault RuleDraft :=
  match field with
  | .overflow => do
      let rule ← v.asRule
      return { d with overflow := some rule }
  | field => d.read field v

/-- How a field of a draft is written. -/
def form (d : RuleDraft) : RuleField → FieldForm
  | .tags => .ifGiven "tags" (Spells.list Tag.Spelled) d.tags
  | .start => .ifGiven "prefix" Spells.text d.start
  | .fromKey => .ifGiven "from_key" Spells.text d.fromKey
  | .toKey => .ifGiven "to_key" Spells.text d.toKey
  | .keys => .ifGiven "keys" (Spells.list Spells.text) d.keys
  | .limitedKey => .ifGiven "tag_key" Spells.text d.limitedKey
  | .replacement => .ifGiven "replacement" Spells.text d.replacement
  | .exceptions =>
      ⟨"exceptions", fun v => ∃ keys, d.exceptions = some keys ∧ Spells.list Spells.text keys v,
        d.exceptions.getD [] = []⟩
  | .max => .ifGiven "max" Spells.word d.max
  | .name => .ifGiven "name" Spells.text d.name
  | .maxValues => .ifGiven "max_values" Spells.word d.maxValues
  | .overflow => .ifGiven "on_max_reached" Rule.Spelled d.overflow
  | .meterType => .ifGiven "meter_type" (fun t => Spells.text t.label) d.meterType
  | .millis => .ifGiven "millis" Spells.word d.millis
  | .value => .ifGiven "value" Spells.real d.value

end RuleDraft

theorem FieldForm.key_ifGiven {α : Type} (key : String) (spells : α → Value → Prop)
    (a? : Option α) : (ifGiven key spells a?).key = key := by
  cases a? <;> rfl

theorem FieldForm.omissible_ifGiven {α : Type} {key : String} {spells : α → Value → Prop}
    {a? : Option α} : (ifGiven key spells a?).Omissible ↔ a? = none := by
  cases a? <;> simp [ifGiven, always]

theorem RuleDraft.key_form (d : RuleDraft) (field : RuleField) :
    (d.form field).key = field.label := by
  cases field with
  | exceptions => rfl
  | _ => exact FieldForm.key_ifGiven _ _ _

/-- The fields of a rule are those of its kind, in the same order. -/
theorem Rule.forms_eq (rule : Rule) : rule.forms = rule.kind.fields.map rule.draft.form := by
  cases rule with
  | replaceTagValues key replacement exceptions =>
      simp [forms, kind, RuleKind.fields, draft, RuleDraft.form, FieldForm.ifGiven]
  | _ => rfl

/-! ## Reading the fields of a rule -/

theorem FieldForm.reads_ifGiven {α : Type} {read : Value → Except DecodeFault α}
    {spells : α → Value → Prop} {key : String} {a? : Option α} {v : Value}
    (reads : ∀ a, a? = some a → ReadsAs read (spells a) a)
    (spelled : (ifGiven key spells a?).Spelled v) :
    ∃ a, a? = some a ∧ read v = .ok a ∧ v.Plain := by
  cases a? with
  | none => cases spelled
  | some a => exact ⟨a, rfl, reads a rfl v spelled⟩

namespace RuleDraft

/-- What spells a field is read as what it says, whatever has been read before. -/
theorem readAny_of_spelled {d : RuleDraft} {field : RuleField} {v : Value}
    (nested : ∀ rule, d.overflow = some rule → ReadsAs Value.asRule rule.Spelled rule)
    (spelled : (d.form field).Spelled v) :
    (∀ fields, (d.only fields).readAny field v = .ok (d.only (fields ++ [field]))) ∧ v.Plain := by
  cases field with
  | tags =>
      obtain ⟨tags, given, reads, plain⟩ :=
        FieldForm.reads_ifGiven (fun _ _ => readsAs_list fun t _ => readsAs_tag t) spelled
      refine ⟨fun fields => ?_, plain⟩
      simp [readAny, read, reads, only, given]
  | start | fromKey | toKey | limitedKey | replacement | name =>
      obtain ⟨s, given, reads, plain⟩ :=
        FieldForm.reads_ifGiven (fun s _ => readsAs_text s) spelled
      refine ⟨fun fields => ?_, plain⟩
      simp [readAny, read, reads, only, given]
  | keys =>
      obtain ⟨keys, given, reads, plain⟩ :=
        FieldForm.reads_ifGiven (fun _ _ => readsAs_list fun s _ => readsAs_text s) spelled
      refine ⟨fun fields => ?_, plain⟩
      simp [readAny, read, reads, only, given]
  | exceptions =>
      obtain ⟨keys, given, spelled⟩ := spelled
      obtain ⟨reads, plain⟩ := readsAs_list (fun s _ => readsAs_text s) v spelled
      refine ⟨fun fields => ?_, plain⟩
      simp [readAny, read, reads, only, given]
  | max | maxValues =>
      obtain ⟨n, given, reads, plain⟩ :=
        FieldForm.reads_ifGiven (fun n _ => readsAs_word .size n) spelled
      refine ⟨fun fields => ?_, plain⟩
      simp [readAny, read, reads, only, given]
  | millis =>
      obtain ⟨n, given, reads, plain⟩ :=
        FieldForm.reads_ifGiven (fun n _ => readsAs_word .word n) spelled
      refine ⟨fun fields => ?_, plain⟩
      simp [readAny, read, reads, only, given]
  | overflow =>
      obtain ⟨rule, given, reads, plain⟩ := FieldForm.reads_ifGiven nested spelled
      refine ⟨fun fields => ?_, plain⟩
      simp [readAny, reads, only, given]
  | meterType =>
      obtain ⟨t, given, reads, plain⟩ :=
        FieldForm.reads_ifGiven (fun t _ => readsAs_meterType t) spelled
      refine ⟨fun fields => ?_, plain⟩
      simp [readAny, read, reads, only, given]
  | value =>
      obtain ⟨x, given, reads, plain⟩ :=
        FieldForm.reads_ifGiven (fun x _ => readsAs_real x) spelled
      refine ⟨fun fields => ?_, plain⟩
      simp [readAny, read, reads, only, given]

end RuleDraft

end MeterGate
