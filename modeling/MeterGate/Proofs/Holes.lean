import MeterGate.Proofs.EntrySteps
import Mathlib.Data.List.Nodup

set_option autoImplicit false

/-! # One value in a document

A rule with a hole takes any value for one of its fields (`Rule.FieldHole`); the rule may stand
behind limits, as the rule for their overflow (`Rule.Hole`), in a document with other rules
(`ChainConfig.Hole`). If a document can be decoded with something in the hole, then what it is
decoded to with anything else depends on how that is read, and on nothing else: the config is the
same but for the one rule (`ChainConfig.Hole.decode_eq`).

For this, a rule is read as a list of fields with values, whether it is a table or an array
(`RuleDraft.readAll`). To read a field sets it (`RuleDraft.take`), and does so no matter what is
read before or after it. -/

namespace MeterGate

/-! ## Drafts -/

namespace RuleDraft

/-- A draft with one field as in another. -/
def take (d e : RuleDraft) (field : RuleField) : RuleDraft where
  tags := if field = .tags then e.tags else d.tags
  start := if field = .start then e.start else d.start
  fromKey := if field = .fromKey then e.fromKey else d.fromKey
  toKey := if field = .toKey then e.toKey else d.toKey
  keys := if field = .keys then e.keys else d.keys
  limitedKey := if field = .limitedKey then e.limitedKey else d.limitedKey
  replacement := if field = .replacement then e.replacement else d.replacement
  exceptions := if field = .exceptions then e.exceptions else d.exceptions
  max := if field = .max then e.max else d.max
  name := if field = .name then e.name else d.name
  maxValues := if field = .maxValues then e.maxValues else d.maxValues
  overflow := if field = .overflow then e.overflow else d.overflow
  meterType := if field = .meterType then e.meterType else d.meterType
  millis := if field = .millis then e.millis else d.millis
  value := if field = .value then e.value else d.value

theorem take_take (d a b : RuleDraft) (field : RuleField) :
    (d.take a field).take b field = d.take b field := by
  cases field <;> rfl

theorem take_comm (d a b : RuleDraft) {f g : RuleField} (h : f ≠ g) :
    (d.take a f).take b g = (d.take b g).take a f := by
  cases f <;> cases g <;> first | rfl | contradiction

/-- To read a field is to take it from what is read of it alone. -/
theorem readAny_eq (d : RuleDraft) (field : RuleField) (v : Value) :
    d.readAny field v = (d.take · field) <$> readAny {} field v := by
  cases field <;> simp only [readAny, read, map_bind, map_pure] <;> rfl

theorem readAll_cons (field : RuleField) (v : Value) (rest : List (RuleField × Value))
    (d : RuleDraft) :
    readAll ((field, v) :: rest) d =
      readAny {} field v >>= fun a => readAll rest (d.take a field) := by
  rw [readAll, List.foldlM_cons, readAny_eq, bind_map_left]
  rfl

theorem readAll_append (first last : List (RuleField × Value)) (d : RuleDraft) :
    readAll (first ++ last) d = readAll first d >>= readAll last :=
  List.foldlM_append

theorem readAll_take {fields : List (RuleField × Value)} {field : RuleField}
    (apart : ∀ p ∈ fields, p.1 ≠ field) (d a : RuleDraft) :
    readAll fields (d.take a field) = (·.take a field) <$> readAll fields d := by
  induction fields generalizing d with
  | nil => rfl
  | cons p rest ih =>
      obtain ⟨other, rest_apart⟩ := List.forall_mem_cons.1 apart
      rw [readAll_cons, readAll_cons, map_bind]
      refine bind_congr fun b => ?_
      rw [take_comm d a b other.symm]
      exact ih rest_apart _

/-- What is read with something for a field shows what is read with anything else for it. -/
theorem readAll_fill {before after : List (RuleField × Value)} {field : RuleField}
    (apart : ∀ p ∈ after, p.1 ≠ field) {filler : Value} {start d : RuleDraft}
    (good : readAll (before ++ (field, filler) :: after) start = .ok d) (v : Value) :
    readAll (before ++ (field, v) :: after) start = (d.take · field) <$> readAny {} field v := by
  rw [readAll_append] at good ⊢
  obtain ⟨first, first_read, good⟩ := ok_of_bind_ok good
  rw [readAll_cons] at good
  obtain ⟨a, -, good⟩ := ok_of_bind_ok good
  rw [readAll_take apart, map_eq_pure_bind] at good
  obtain ⟨last, last_read, told⟩ := ok_of_bind_ok good
  cases told
  rw [first_read]
  refine (readAll_cons field v after first).trans ?_
  rw [map_eq_pure_bind]
  refine bind_congr fun b => ?_
  rw [readAll_take apart, last_read]
  exact congrArg Except.ok (take_take last a b field).symm

end RuleDraft

/-! ## A field of a rule -/

/-- A rule of some kind with a hole for one of its fields. -/
inductive Rule.FieldHole (kind : RuleKind) (field : RuleField) : (Value → Value) → Prop where
  | entry {front back : List (String × Value)} : field ∈ kind.fields →
      ("type", .text kind.label) ∈ front ++ back → ((front ++ back).map Prod.fst).Nodup →
      field.label ∉ (front ++ back).map Prod.fst →
      FieldHole kind field fun v => .table (front ++ (field.label, v) :: back)
  | item {front back : List Value} : kind.fields[front.length]? = some field →
      FieldHole kind field fun v => .array (.text kind.label :: (front ++ v :: back))

namespace RuleKind

theorem label_inj {kind kind' : RuleKind} (h : kind.label = kind'.label) : kind = kind' := by
  have same := kind.ofLabel?_label
  rw [h, ofLabel?_label] at same
  exact (Option.some.inj same).symm

theorem nodup_fields (kind : RuleKind) : kind.fields.Nodup := by
  cases kind <;> decide

theorem mem_of_mem_given {kind : RuleKind} {entries : List (String × Value)}
    {p : RuleField × Value} (h : p ∈ kind.given entries) : p.1.label ∈ entries.map Prod.fst := by
  obtain ⟨e, listed, given⟩ := List.mem_filterMap.1 h
  obtain ⟨field, known, rfl⟩ := Option.map_eq_some_iff.1 given
  have same := List.find?_some known
  rw [beq_iff_eq] at same
  rw [same]
  exact List.mem_map_of_mem listed

/-- What the entries around a hole give stays around what is given for its field. -/
theorem given_fill {kind : RuleKind} {field : RuleField} (listed : field ∈ kind.fields)
    {front back : List (String × Value)} (v : Value) :
    kind.given (front ++ (field.label, v) :: back) =
      kind.given front ++ (field, v) :: kind.given back := by
  rw [given, List.filterMap_append, List.filterMap_cons, field?_label listed]
  rfl

/-- A table with different keys names one kind. -/
theorem eq_of_typed {kind kind' : RuleKind} {entries : List (String × Value)}
    (distinct : (entries.map Prod.fst).Nodup) (typed : ("type", .text kind.label) ∈ entries)
    (typed' : ("type", .text kind'.label) ∈ entries) : kind = kind' := by
  have same := List.inj_on_of_nodup_map distinct typed typed' rfl
  rw [Prod.mk.injEq, Value.text.injEq] at same
  exact label_inj same.2

section

variable {kind : RuleKind} {field : RuleField} {n : Nat} (place : kind.fields[n]? = some field)
include place

theorem fields_eq_take_cons_drop :
    kind.fields = kind.fields.take n ++ field :: kind.fields.drop (n + 1) := by
  obtain ⟨short, at_place⟩ := List.getElem?_eq_some_iff.1 place
  rw [← at_place, List.getElem_cons_drop, List.take_append_drop]

theorem not_mem_drop : field ∉ kind.fields.drop (n + 1) := by
  have distinct := kind.nodup_fields
  rw [fields_eq_take_cons_drop place] at distinct
  exact (List.nodup_cons.1 (List.nodup_append.1 distinct).2.1).1

end

theorem zip_fill {kind : RuleKind} {field : RuleField} {front back : List Value}
    (place : kind.fields[front.length]? = some field) (v : Value) :
    kind.fields.zip (front ++ v :: back) =
      (kind.fields.take front.length).zip front ++
        (field, v) :: (kind.fields.drop (front.length + 1)).zip back := by
  obtain ⟨short, -⟩ := List.getElem?_eq_some_iff.1 place
  conv_lhs => rw [fields_eq_take_cons_drop place]
  rw [List.zip_append (List.length_take_of_le (Nat.le_of_lt short)), List.zip_cons_cons]

end RuleKind

namespace Value

/-- The two rounds of a table with a hole, of which the first looks at the numbers in the hole. -/
theorem kindOfEntries_fill {kind : RuleKind} {front back : List (String × Value)} {key : String}
    (not_type : key ≠ "type") {filler : Value}
    (good : kindOfEntries (front ++ (key, filler) :: back) none = .ok kind) (v : Value) :
    kindOfEntries (front ++ (key, v) :: back) none =
      check (v.numberFault? heldInteger?) >>= fun _ => .ok kind := by
  rw [kindOfEntries_eq_foldlM, List.foldlM_append, bind_assoc] at good ⊢
  obtain ⟨known, front_read, good⟩ := ok_of_bind_ok good
  rw [List.foldlM_cons, kindStep, if_neg not_type, bind_assoc, bind_assoc] at good
  obtain ⟨-, -, good⟩ := ok_of_bind_ok good
  rw [front_read]
  refine (congrArg (· >>= required "type") List.foldlM_cons).trans ?_
  rw [kindStep, if_neg not_type, bind_assoc, bind_assoc]
  exact bind_congr fun _ => good

/-- If everything is plain with something in a hole, what is at fault with anything else in it is at
    fault in that. -/
theorem findSome?_fill {α : Type} {f : α → Option DecodeFault} {front back : List α} {filler : α}
    (plain : (front ++ filler :: back).findSome? f = none) (a : α) :
    (front ++ a :: back).findSome? f = f a := by
  rw [List.findSome?_eq_none_iff, List.forall_mem_append, List.forall_mem_cons] at plain
  obtain ⟨front_plain, -, back_plain⟩ := plain
  rw [List.findSome?_append, List.findSome?_cons, List.findSome?_eq_none_iff.2 front_plain,
    List.findSome?_eq_none_iff.2 back_plain]
  cases f a <;> rfl

/-- If an array is long enough for a rule, and not too long, this does not depend on what its items
    say. -/
theorem finishFirst_of_ok {kind : RuleKind} {length : Nat} {d : RuleDraft} {rule : Rule}
    (h : finishFirst kind length d = .ok rule) (d' : RuleDraft) :
    finishFirst kind length d' = d'.finish kind := by
  rw [finishFirst] at h ⊢
  split at h
  · cases h
  · next not_long =>
      rw [finishItems] at h ⊢
      split at h
      · next omissible => rw [if_neg not_long, if_pos omissible]
      · cases h

end Value

/-- The rule of a draft with one field read off a value, after a look at the numbers in that. -/
def RuleDraft.refill (d : RuleDraft) (kind : RuleKind) (field : RuleField) (v : Value) :
    Except DecodeFault Rule :=
  Value.check (v.numberFault? heldInteger?) >>= fun _ =>
    readAny {} field v >>= fun a => (d.take a field).finish kind

theorem Value.asRule_fill_entry {kind : RuleKind} {field : RuleField}
    {front back : List (String × Value)} (listed : field ∈ kind.fields)
    (typed : ("type", .text kind.label) ∈ front ++ back)
    (distinct : ((front ++ back).map Prod.fst).Nodup)
    (absent : field.label ∉ (front ++ back).map Prod.fst) {filler : Value} {rule : Rule}
    (good : asRule (.table (front ++ (field.label, filler) :: back)) = .ok rule) :
    (∀ v, (table (front ++ (field.label, v) :: back)).numberFault? heldInteger? =
      v.numberFault? heldInteger?) ∧
    ∃ d : RuleDraft, d.finish kind = .ok rule ∧
      ∀ v, asRule (.table (front ++ (field.label, v) :: back)) = d.refill kind field v := by
  rw [asRule_table_eq] at good
  obtain ⟨found, kind_found, good⟩ := ok_of_bind_ok good
  obtain ⟨d, read, finished⟩ := ok_of_bind_ok good
  have not_type := field.label_ne_type
  obtain rfl : found = kind := by
    rcases type_of_kindOfEntries kind_found with known | both
    · cases known
    · rw [List.mem_append, List.mem_cons, Prod.mk.injEq, or_left_comm, ← List.mem_append] at both
      rcases both with ⟨same, -⟩ | both
      · exact absurd same.symm not_type
      · exact RuleKind.eq_of_typed distinct both typed
  have apart : ∀ p ∈ found.given back, p.1 ≠ field := by
    rintro p given rfl
    refine absent ?_
    rw [List.map_append]
    exact List.mem_append_right _ (RuleKind.mem_of_mem_given given)
  refine ⟨fun v => ?_, d, finished, fun v => ?_⟩
  · have plain := plain_of_kindOfEntries kind_found
    simp only [numberFault?, entriesNumberFault?_eq]
    exact findSome?_fill (List.findSome?_eq_none_iff.2 plain) (field.label, v)
  · rw [RuleKind.given_fill listed] at read
    rw [asRule_table_eq, kindOfEntries_fill not_type kind_found, bind_assoc]
    refine bind_congr fun _ => ?_
    refine (congrArg (RuleDraft.readAll · {} >>= fun d => d.finish found)
      (RuleKind.given_fill listed v)).trans ?_
    rw [RuleDraft.readAll_fill apart read, bind_map_left]

theorem Value.asRule_fill_item {kind : RuleKind} {field : RuleField} {front back : List Value}
    (place : kind.fields[front.length]? = some field) {filler : Value} {rule : Rule}
    (good : asRule (.array (.text kind.label :: (front ++ filler :: back))) = .ok rule) :
    (∀ v, (array (.text kind.label :: (front ++ v :: back))).numberFault? heldInteger? =
      v.numberFault? heldInteger?) ∧
    ∃ d : RuleDraft, d.finish kind = .ok rule ∧
      ∀ v, asRule (.array (.text kind.label :: (front ++ v :: back))) =
        d.refill kind field v := by
  rw [asRule_array_eq] at good
  obtain ⟨_, passed, good⟩ := ok_of_bind_ok good
  obtain ⟨d, read, finished⟩ := ok_of_bind_ok good
  rw [check_eq_ok, itemsNumberFault?_eq] at passed
  have apart : ∀ p ∈ (kind.fields.drop (front.length + 1)).zip back, p.1 ≠ field := by
    rintro p listed rfl
    exact RuleKind.not_mem_drop place (List.of_mem_zip listed).1
  have all_given := finishFirst_of_ok finished
  have same_length (v : Value) : (front ++ v :: back).length = (front ++ filler :: back).length :=
    by rw [List.length_append, List.length_append, List.length_cons, List.length_cons]
  refine ⟨fun v => ?_, d, (all_given d).symm.trans finished, fun v => ?_⟩
  · simp only [numberFault?, itemsNumberFault?_eq, List.findSome?_cons]
    exact findSome?_fill passed v
  · rw [RuleKind.zip_fill place] at read
    rw [asRule_array_eq, itemsNumberFault?_eq, findSome?_fill passed, RuleKind.zip_fill place,
      RuleDraft.readAll_fill apart read, bind_map_left, same_length]
    simp only [all_given]
    rfl

/-- If a rule can be read with something in its hole, then with anything else in it the numbers of
    that are looked at, and the field is taken from it. -/
theorem Rule.FieldHole.asRule_eq {kind : RuleKind} {field : RuleField} {fill : Value → Value}
    (hole : FieldHole kind field fill) {filler : Value} {rule : Rule}
    (good : (fill filler).asRule = .ok rule) :
    (∀ v, (fill v).numberFault? heldInteger? = v.numberFault? heldInteger?) ∧
    ∃ d : RuleDraft, d.finish kind = .ok rule ∧ ∀ v, (fill v).asRule = d.refill kind field v := by
  cases hole with
  | entry listed typed distinct absent =>
      exact Value.asRule_fill_entry listed typed distinct absent good
  | item place => exact Value.asRule_fill_item place good

/-! ## A rule behind limits -/

namespace Rule

/-- The rule that stands behind so many limits. -/
def overflowAt : Nat → Rule → Option Rule
  | 0, rule => some rule
  | depth + 1, .maximumAllowableTags _ _ _ overflow => overflow.overflowAt depth
  | _ + 1, _ => none

/-- A rule with the one behind so many limits changed. -/
def modifyOverflow (f : Rule → Rule) : Nat → Rule → Rule
  | 0, rule => f rule
  | depth + 1, .maximumAllowableTags name key max overflow =>
      .maximumAllowableTags name key max (modifyOverflow f depth overflow)
  | _ + 1, rule => rule

theorem overflowAt_modifyOverflow {f : Rule → Rule} {depth : Nat} {rule inner : Rule}
    (h : rule.overflowAt depth = some inner) :
    (rule.modifyOverflow f depth).overflowAt depth = some (f inner) := by
  induction depth generalizing rule with
  | zero =>
      cases h
      rfl
  | succ depth ih =>
      cases rule with
      | maximumAllowableTags name key max overflow => exact ih h
      | _ => cases h

theorem modifyOverflow_congr {f g : Rule → Rule} {depth : Nat} {rule inner : Rule}
    (h : rule.overflowAt depth = some inner) (same : f inner = g inner) :
    rule.modifyOverflow f depth = rule.modifyOverflow g depth := by
  induction depth generalizing rule with
  | zero =>
      cases h
      exact same
  | succ depth ih =>
      cases rule with
      | maximumAllowableTags name key max overflow =>
          rw [modifyOverflow, modifyOverflow, ih h]
      | _ => cases h

/-- A rule with a hole for a field, behind so many limits. -/
inductive Hole (kind : RuleKind) (field : RuleField) : Nat → (Value → Value) → Prop where
  | here {fill : Value → Value} : FieldHole kind field fill → Hole kind field 0 fill
  | inOverflow {outer inner : Value → Value} {depth : Nat} :
      FieldHole .maximumAllowableTags .overflow outer → Hole kind field depth inner →
      Hole kind field (depth + 1) fun v => outer (inner v)

/-- A limit with a hole for its overflow is read as the limit with what is read there. -/
theorem FieldHole.asRule_overflow {fill : Value → Value}
    (hole : FieldHole .maximumAllowableTags .overflow fill) {filler : Value} {rule : Rule}
    (good : (fill filler).asRule = .ok rule) :
    ∃ name key max overflow, rule = .maximumAllowableTags name key max overflow ∧
      filler.asRule = .ok overflow ∧ ∀ v, (fill v).asRule =
        Value.check (v.numberFault? heldInteger?) >>= fun _ => v.asRule >>= fun overflow =>
          .ok (.maximumAllowableTags name key max overflow) := by
  obtain ⟨-, d, finished, asRule_eq⟩ := hole.asRule_eq good
  obtain ⟨name, key, max, finish_eq⟩ : ∃ name key max, ∀ overflow,
      (d.take { overflow := some overflow } .overflow).finish .maximumAllowableTags =
        .ok (.maximumAllowableTags name key max overflow) := by
    rw [RuleDraft.finish] at finished
    obtain ⟨name, has_name, finished⟩ := ok_of_bind_ok finished
    obtain ⟨key, has_key, finished⟩ := ok_of_bind_ok finished
    obtain ⟨max, has_max, -⟩ := ok_of_bind_ok finished
    refine ⟨name, key, max, fun overflow => ?_⟩
    simp only [RuleDraft.finish, RuleDraft.take, reduceCtorEq, if_false, has_name, has_key, has_max]
    rfl
  have filled (v : Value) : (fill v).asRule =
      Value.check (v.numberFault? heldInteger?) >>= fun _ => v.asRule >>= fun overflow =>
        .ok (.maximumAllowableTags name key max overflow) := by
    rw [asRule_eq, RuleDraft.refill]
    simp only [RuleDraft.readAny, bind_assoc, pure_bind, finish_eq]
  rw [filled] at good
  obtain ⟨_, -, good⟩ := ok_of_bind_ok good
  obtain ⟨overflow, read, told⟩ := ok_of_bind_ok good
  cases told
  exact ⟨name, key, max, overflow, rfl, read, filled⟩

/-- If a rule can be read with something in its hole, then with anything else in it the rule that
    has the hole is read with that, and everything around it stays. -/
theorem Hole.asRule_eq {kind : RuleKind} {field : RuleField} {depth : Nat} {fill : Value → Value}
    (hole : Hole kind field depth fill) {filler : Value} {rule : Rule}
    (good : (fill filler).asRule = .ok rule) :
    (∀ v, (fill v).numberFault? heldInteger? = v.numberFault? heldInteger?) ∧
    ∃ d leaf, rule.overflowAt depth = some leaf ∧ RuleDraft.finish d kind = .ok leaf ∧
      ∀ v, (fill v).asRule =
        (fun leaf => rule.modifyOverflow (fun _ => leaf) depth) <$> d.refill kind field v := by
  induction hole generalizing rule with
  | here hole =>
      obtain ⟨numbers, d, finished, asRule_eq⟩ := hole.asRule_eq good
      refine ⟨numbers, d, rule, rfl, finished, fun v => ?_⟩
      rw [asRule_eq]
      exact (id_map' _).symm
  | @inOverflow outer inner depth outer_hole _ ih =>
      obtain ⟨name, key, max, overflow, rfl, inner_good, outer_eq⟩ :=
        outer_hole.asRule_overflow good
      obtain ⟨numbers, d, leaf, at_depth, finished, inner_eq⟩ := ih inner_good
      refine ⟨fun v => ?_, d, leaf, at_depth, finished, fun v => ?_⟩
      · rw [(outer_hole.asRule_eq good).1, numbers]
      · rw [outer_eq, numbers, inner_eq, RuleDraft.refill]
        cases v.numberFault? heldInteger? with
        | some fault => rfl
        | none =>
            simp only [map_eq_pure_bind, bind_assoc, pure_bind]
            rfl

end Rule

/-! ## A rule of a document -/

namespace Value

/-- Items with one that is read as something else are read as the same things but for that. -/
theorem eachOf_fill {α : Type} {read : Value → Except DecodeFault α} {before after : List Value}
    {filler : Value} {as : List α} (good : eachOf read (before ++ filler :: after) = .ok as) :
    ∃ a, as[before.length]? = some a ∧ read filler = .ok a ∧
      ∀ v, eachOf read (before ++ v :: after) =
        (fun a => as.modify before.length fun _ => a) <$> read v := by
  induction before generalizing as with
  | nil =>
      obtain ⟨a, first, good⟩ := ok_of_bind_ok good
      obtain ⟨rest, after_read, told⟩ := ok_of_bind_ok good
      cases told
      refine ⟨a, rfl, first, fun v => ?_⟩
      rw [List.nil_append, eachOf, after_read]
      cases read v <;> rfl
  | cons w before ih =>
      obtain ⟨b, first, good⟩ := ok_of_bind_ok good
      obtain ⟨rest, rest_read, told⟩ := ok_of_bind_ok good
      cases told
      obtain ⟨a, place, own, filled⟩ := ih rest_read
      refine ⟨a, place, own, fun v => ?_⟩
      rw [List.cons_append, eachOf, first, filled]
      cases read v <;> rfl

/-- What entries other than the rules give does not depend on the rules that have been read. -/
theorem foldlM_partsStep {entries : List (String × Value)}
    (others : "filters" ∉ entries.map Prod.fst) (level : Option String)
    (rules rules' : Option (List Rule)) :
    entries.foldlM partsStep (level, rules') =
      (fun parts => (parts.1, rules')) <$> entries.foldlM partsStep (level, rules) := by
  induction entries generalizing level with
  | nil => rfl
  | cons e rest ih =>
      rw [List.map_cons, List.mem_cons, not_or] at others
      rw [List.foldlM_cons, List.foldlM_cons, partsStep, partsStep, if_neg (Ne.symm others.1),
        if_neg (Ne.symm others.1), map_bind]
      split
      · simp only [bind_assoc, pure_bind, ih others.2]
      · simp only [bind_assoc, pure_bind, ih others.2]

end Value

theorem modify_congr {α : Type} {as : List α} {i : Nat} {a : α} {f g : α → α}
    (h : as[i]? = some a) (same : f a = g a) : as.modify i f = as.modify i g := by
  obtain ⟨short, rfl⟩ := List.getElem?_eq_some_iff.1 h
  rw [List.modify_eq_take_cons_drop short, List.modify_eq_take_cons_drop short, same]

namespace ChainConfig

/-- The rule of a config at some place in the list, behind so many limits. -/
def ruleAt (c : ChainConfig) (index depth : Nat) : Option Rule :=
  c.rules[index]? >>= Rule.overflowAt depth

/-- A config with one rule changed. -/
def modifyRule (c : ChainConfig) (index depth : Nat) (f : Rule → Rule) : ChainConfig :=
  { c with rules := c.rules.modify index (Rule.modifyOverflow f depth) }

/-- A document with a hole for a field of the rule at some place in the list, or of one behind
    it. -/
inductive Hole (kind : RuleKind) (field : RuleField) (index depth : Nat) :
    (Value → List (String × Value)) → Prop where
  | intro {front back : List (String × Value)} {before after : List Value}
      {fill : Value → Value} : "filters" ∉ (front ++ back).map Prod.fst →
      before.length = index → Rule.Hole kind field depth fill →
      Hole kind field index depth fun v =>
        front ++ ("filters", .array (before ++ fill v :: after)) :: back

theorem modifyRule_congr {c : ChainConfig} {index depth : Nat} {rule : Rule} {f g : Rule → Rule}
    (h : c.ruleAt index depth = some rule) (same : f rule = g rule) :
    c.modifyRule index depth f = c.modifyRule index depth g := by
  obtain ⟨top, listed, behind⟩ := Option.bind_eq_some_iff.1 h
  exact congrArg (ChainConfig.mk c.logLevel)
    (modify_congr listed (Rule.modifyOverflow_congr behind same))

theorem ruleAt_modifyRule {c : ChainConfig} {index depth : Nat} {rule : Rule} {f : Rule → Rule}
    (h : c.ruleAt index depth = some rule) :
    (c.modifyRule index depth f).ruleAt index depth = some (f rule) := by
  obtain ⟨top, listed, behind⟩ := Option.bind_eq_some_iff.1 h
  refine Option.bind_eq_some_iff.2 ⟨_, ?_, Rule.overflowAt_modifyOverflow behind⟩
  rw [modifyRule, List.getElem?_modify_eq, listed]
  rfl

variable {kind : RuleKind} {field : RuleField} {index depth : Nat}

/-- **One value in a document.** If a document can be decoded with something in its hole, then with
    anything else in it the rule that has the hole is read with that, and everything else stays. -/
theorem Hole.decode_eq {fill : Value → List (String × Value)}
    (hole : Hole kind field index depth fill) {filler : Value} {c : ChainConfig}
    (good : decode (fill filler) = .ok c) :
    ∃ d leaf, c.ruleAt index depth = some leaf ∧ RuleDraft.finish d kind = .ok leaf ∧
      ∀ v, decode (fill v) =
        (fun leaf => c.modifyRule index depth fun _ => leaf) <$> d.refill kind field v := by
  obtain ⟨absent, rfl, hole⟩ := hole
  next front back before after fill =>
    have no_rules_after : "filters" ∉ back.map Prod.fst := by
      rw [List.map_append, List.mem_append, not_or] at absent
      exact absent.2
    have decode_eq (v : Value) :
        decode (front ++ ("filters", .array (before ++ fill v :: after)) :: back) =
          front.foldlM Value.partsStep (none, none) >>= fun parts =>
            Value.eachOf Value.asRule (before ++ fill v :: after) >>= fun rules =>
              back.foldlM Value.partsStep (parts.1, some rules) >>= fun parts =>
                pure ⟨parts.1.getD "info", parts.2.getD []⟩ := by
      rw [decode, Value.configParts_eq_foldlM, List.foldlM_append, bind_assoc]
      refine bind_congr fun parts => ?_
      rw [List.foldlM_cons, Value.partsStep, if_pos rfl, Value.asArrayOf, bind_assoc, bind_assoc]
      refine bind_congr fun rules => ?_
      rw [pure_bind]
    rw [decode_eq] at good
    obtain ⟨first, front_read, good⟩ := ok_of_bind_ok good
    obtain ⟨rules, rules_read, good⟩ := ok_of_bind_ok good
    rw [Value.foldlM_partsStep no_rules_after first.1 none (some rules), bind_map_left] at good
    obtain ⟨last, back_read, told⟩ := ok_of_bind_ok good
    cases told
    obtain ⟨top, listed, top_read, rules_eq⟩ := Value.eachOf_fill rules_read
    obtain ⟨-, d, leaf, behind, finished, top_eq⟩ := hole.asRule_eq top_read
    have at_place : ruleAt ⟨last.1.getD "info", rules⟩ before.length depth = some leaf := by
      exact Option.bind_eq_some_iff.2 ⟨top, listed, behind⟩
    refine ⟨d, leaf, at_place, finished, fun v => ?_⟩
    rw [decode_eq, front_read, rules_eq, top_eq]
    cases d.refill kind field v with
    | error fault => rfl
    | ok leaf' =>
        have same_rules :
            (rules.modify before.length fun _ => top.modifyOverflow (fun _ => leaf') depth) =
              rules.modify before.length (Rule.modifyOverflow (fun _ => leaf') depth) :=
          modify_congr listed rfl
        refine (congrArg (· >>= fun parts : Option String × Option (List Rule) =>
          pure (ChainConfig.mk (parts.1.getD "info") (parts.2.getD [])))
          (Value.foldlM_partsStep no_rules_after first.1 none _)).trans ?_
        rw [back_read]
        exact congrArg (fun rules => Except.ok (ChainConfig.mk (last.1.getD "info") rules))
          same_rules

end ChainConfig

end MeterGate
