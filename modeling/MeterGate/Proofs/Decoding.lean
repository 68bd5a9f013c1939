import MeterGate.Proofs.RuleFields

set_option autoImplicit false

/-! # Decoding undoes spelling

Whatever spells a config is decoded to it (`ChainConfig.decode_spelled`).

A table is read entry by entry, and what has been read of a rule depends on the set of the fields
read so far only, so the order of the entries does not matter (`Value.draftOfEntries_eq`); of an
array, all fields are read (`Value.draftOfItems_eq`). That a rule passes its first round and that
the second one reads the rule are shown together, by induction on the rule, as a rule may hold
another (`readsAs_rule`). -/

namespace MeterGate

/-! ## Rules -/

namespace RuleKind

theorem field?_type (kind : RuleKind) : kind.field? "type" = none := by
  cases kind <;> decide

theorem field?_label {kind : RuleKind} {field : RuleField} (h : field ∈ kind.fields) :
    kind.field? field.label = some field := by
  revert h
  cases kind <;> cases field <;> decide

/-- The fields that some entries are for. -/
def fieldsAmong (kind : RuleKind) (entries : List (String × Value)) : List RuleField :=
  entries.filterMap fun e => kind.field? e.1

end RuleKind

theorem RuleField.label_ne_type (field : RuleField) : field.label ≠ "type" := by
  cases field <;> decide

namespace Value

theorem draftOfEntries_cons (kind : RuleKind) (k : String) (v : Value)
    (rest : List (String × Value)) (d : RuleDraft) :
    draftOfEntries kind ((k, v) :: rest) d =
      match kind.field? k with
      | none => draftOfEntries kind rest d
      | some field => d.readAny field v >>= draftOfEntries kind rest := by
  rw [draftOfEntries]
  split
  · next unknown => rw [unknown]
  · next overflow =>
      simp only [overflow, RuleDraft.readAny, bind_assoc, pure_bind]
  · next field _ known =>
      rw [known]
      cases field <;> first | rfl | contradiction

theorem draftOfItems_cons (kind : RuleKind) (length : Nat) (field : RuleField)
    (fields : List RuleField) (v : Value) (rest : List Value) (d : RuleDraft) :
    draftOfItems kind length (field :: fields) (v :: rest) d =
      d.readAny field v >>= draftOfItems kind length fields rest := by
  cases field with
  | overflow =>
      simp only [draftOfItems, RuleDraft.readAny, bind_assoc, pure_bind]
  | _ =>
      rw [draftOfItems]
      · rfl
      · simp

/-- The kind of a table is what its `type` says, if everything else is plain. -/
theorem kindOfEntries_eq {kind : RuleKind} {entries : List (String × Value)}
    (each : ∀ e ∈ entries, e = ("type", .text kind.label) ∨ e.1 ≠ "type" ∧ e.2.Plain)
    (known : Option RuleKind) :
    kindOfEntries entries known =
      required "type" (if "type" ∈ entries.map Prod.fst then some kind else known) := by
  induction entries generalizing known with
  | nil => rw [kindOfEntries, List.map_nil, if_neg List.not_mem_nil]
  | cons e rest ih =>
      obtain ⟨first, rest⟩ := List.forall_mem_cons.1 each
      rcases first with rfl | ⟨other, plain⟩
      · rw [kindOfEntries, if_pos rfl, asRuleKind, asNameOf, RuleKind.ofLabel?_label]
        refine (ih rest (some kind)).trans ?_
        simp only [List.map_cons, List.mem_cons, true_or, if_true, ite_self]
      · rw [kindOfEntries, if_neg other, show e.2.numberFault? heldInteger? = none from plain]
        refine (ih rest known).trans ?_
        simp only [List.map_cons, List.mem_cons, other.symm, false_or]

variable {d : RuleDraft}
  (nested : ∀ rule, d.overflow = some rule → ReadsAs asRule rule.Spelled rule)

include nested

theorem draftOfEntries_eq {kind : RuleKind} {entries : List (String × Value)}
    (each : ∀ e ∈ entries, ∀ field, kind.field? e.1 = some field → (d.form field).Spelled e.2)
    (fields : List RuleField) :
    draftOfEntries kind entries (d.only fields) =
      .ok (d.only (fields ++ kind.fieldsAmong entries)) := by
  induction entries generalizing fields with
  | nil => rw [draftOfEntries, RuleKind.fieldsAmong, List.filterMap_nil, List.append_nil]
  | cons e rest ih =>
      obtain ⟨first, rest⟩ := List.forall_mem_cons.1 each
      rw [draftOfEntries_cons, RuleKind.fieldsAmong, List.filterMap_cons]
      cases known : kind.field? e.1 with
      | none => exact ih rest fields
      | some field =>
          obtain ⟨reads, -⟩ := RuleDraft.readAny_of_spelled nested (first field known)
          simp only [reads]
          refine (ih rest (fields ++ [field])).trans ?_
          rw [List.append_assoc, List.singleton_append]
          rfl

theorem draftOfItems_eq {kind : RuleKind} {length : Nat} {remaining : List RuleField}
    {items : List Value}
    (spelled : List.Forall₂ FieldForm.Spelled (remaining.map d.form) items)
    (fields : List RuleField) :
    draftOfItems kind length remaining items (d.only fields) =
      (d.only (fields ++ remaining)).finish kind := by
  induction remaining generalizing items fields with
  | nil =>
      cases spelled
      rw [draftOfItems, List.append_nil]
      rfl
  | cons field remaining ih =>
      cases spelled with
      | @cons _ v _ items own rest =>
          obtain ⟨reads, -⟩ := RuleDraft.readAny_of_spelled nested own
          rw [draftOfItems_cons, reads]
          refine (ih rest (fields ++ [field])).trans ?_
          rw [List.append_assoc, List.singleton_append]

end Value

/-- A field that is not read, but then says nothing, is as if it had been read. -/
theorem RuleDraft.eq_of_read {α : Type} {field : RuleField} {fields : List RuleField}
    {a? : Option α} (h : field ∈ fields ∨ a? = none) :
    (if field ∈ fields then a? else none) = a? := by
  rcases h with has | rfl
  · rw [if_pos has]
  · exact ite_self none

/-- A rule's draft is the rule once all its fields have been read that must be there. -/
theorem Rule.finish_only {rule : Rule} {fields : List RuleField}
    (all : ∀ field ∈ rule.kind.fields, field ∈ fields ∨ (rule.draft.form field).Omissible) :
    (rule.draft.only fields).finish rule.kind = .ok rule := by
  cases rule with
  | accept | deny => rfl
  | replaceTagValues key replacement exceptions =>
      simp only [kind, RuleKind.fields, draft, RuleDraft.form, FieldForm.omissible_ifGiven,
        List.forall_mem_cons, reduceCtorEq, or_false, Option.getD_some] at all
      obtain ⟨has_key, has_replacement, has_exceptions, -⟩ := all
      have told :
          (if .exceptions ∈ fields then some exceptions else none).getD [] = exceptions := by
        rcases has_exceptions with has | rfl
        · rw [if_pos has, Option.getD_some]
        · split <;> rfl
      simp only [kind, draft, RuleDraft.only, has_key, has_replacement, if_true]
      exact congrArg (fun keys => Except.ok (replaceTagValues key replacement keys)) told
  | maxExpected b | minExpected b =>
      simp only [kind, RuleKind.fields, draft, RuleDraft.form, FieldForm.omissible_ifGiven,
        List.forall_mem_cons, reduceCtorEq, or_false] at all
      obtain ⟨has_start, has_type, has_millis, has_value, -⟩ := all
      simp only [kind, draft, RuleDraft.only, has_start, has_type, if_true,
        RuleDraft.eq_of_read has_millis, RuleDraft.eq_of_read has_value]
      rfl
  | _ =>
      simp only [kind, RuleKind.fields, draft, RuleDraft.form, FieldForm.omissible_ifGiven,
        List.forall_mem_cons, reduceCtorEq, or_false] at all
      simp only [kind, draft, RuleDraft.only, all, if_true]
      rfl

section

variable {rule : Rule} (nested : ∀ inner, rule.draft.overflow = some inner →
  ReadsAs Value.asRule inner.Spelled inner)

include nested

/-- A rule is read off a table whose entries are its type and its fields, in any order. -/
theorem Value.asRule_table {entries : List (String × Value)}
    (written : TableOf (Rule.typeForm rule.kind :: rule.kind.fields.map rule.draft.form) entries) :
    asRule (.table entries) = .ok rule := by
  have each : ∀ e ∈ entries, e = ("type", .text rule.kind.label) ∨
      ∃ field ∈ rule.kind.fields, e.1 = field.label ∧ (rule.draft.form field).Spelled e.2 := by
    intro e listed
    obtain ⟨form, mem, key, own⟩ := written.exists_form e listed
    rcases List.mem_cons.1 mem with rfl | mem
    · exact .inl (Prod.ext key own)
    · obtain ⟨field, listed, rfl⟩ := List.mem_map.1 mem
      exact .inr ⟨field, listed, key.trans (rule.draft.key_form field), own⟩
  have has_type : "type" ∈ entries.map Prod.fst := by
    rcases written.written_or_omissible List.mem_cons_self with has | ⟨⟨⟩⟩
    exact has
  have kind_eq : kindOfEntries entries none = .ok rule.kind := by
    rw [kindOfEntries_eq, if_pos has_type]
    · rfl
    · intro e listed
      rcases each e listed with is_type | ⟨field, -, key, own⟩
      · exact .inl is_type
      · refine .inr ⟨?_, (RuleDraft.readAny_of_spelled nested own).2⟩
        rw [key]
        exact field.label_ne_type
  have draft_eq : draftOfEntries rule.kind entries {} =
      .ok (rule.draft.only (rule.kind.fieldsAmong entries)) := by
    refine draftOfEntries_eq nested (fun e listed field known => ?_) []
    rcases each e listed with rfl | ⟨own_field, listed, key, own⟩
    · cases rule.kind.field?_type.symm.trans known
    · rw [key, RuleKind.field?_label listed] at known
      cases known
      exact own
  rw [asRule, kind_eq]
  refine (congrArg (· >>= (RuleDraft.finish · rule.kind)) draft_eq).trans ?_
  refine Rule.finish_only fun field listed => ?_
  have own : rule.draft.form field ∈
      Rule.typeForm rule.kind :: rule.kind.fields.map rule.draft.form :=
    List.mem_cons_of_mem _ (List.mem_map_of_mem listed)
  refine (written.written_or_omissible own).imp_left fun has => ?_
  rw [rule.draft.key_form] at has
  obtain ⟨e, listed_e, key⟩ := List.mem_map.1 has
  exact List.mem_filterMap.2 ⟨e, listed_e, by rw [key, RuleKind.field?_label listed]⟩

theorem Value.asRule_array {items : List Value}
    (written : List.Forall₂ FieldForm.Spelled
      (Rule.typeForm rule.kind :: rule.kind.fields.map rule.draft.form) items) :
    asRule (.array items) = .ok rule := by
  cases written with
  | @cons _ first _ items own rest =>
      obtain rfl : first = .text rule.kind.label := own
      have plain : ∀ v ∈ items, v.Plain := by
        refine plain_of_forall₂ rest fun form mem v own => ?_
        obtain ⟨field, -, rfl⟩ := List.mem_map.1 mem
        exact (RuleDraft.readAny_of_spelled nested own).2
      have no_fault : itemsNumberFault? heldInteger? items = none := by
        have := plain_array plain
        rwa [Plain, numberFault?] at this
      rw [asRule, asRuleKind, asNameOf, RuleKind.ofLabel?_label]
      refine (congrArg (check · >>= fun _ => _) no_fault).trans ?_
      refine (draftOfItems_eq nested rest []).trans ?_
      exact Rule.finish_only fun field listed => .inl listed

end

/-- Whatever spells a rule is read as it, and may stand in another rule. -/
theorem readsAs_rule (rule : Rule) : ReadsAs Value.asRule rule.Spelled rule := by
  -- A rule can be read if the one in it can.
  have step (rule : Rule) (nested : ∀ inner, rule.draft.overflow = some inner →
      ReadsAs Value.asRule inner.Spelled inner) : ReadsAs Value.asRule rule.Spelled rule := by
    intro v spelled
    rw [Rule.Spelled, Rule.forms_eq] at spelled
    refine ⟨?_, spelled.plain ?_⟩
    · cases spelled with
      | table written => exact Value.asRule_table nested written
      | array written => exact Value.asRule_array nested written
    · intro form mem v own
      rcases List.mem_cons.1 mem with rfl | mem
      · exact (readsAs_text _ v own).2
      · obtain ⟨field, -, rfl⟩ := List.mem_map.1 mem
        exact (RuleDraft.readAny_of_spelled nested own).2
  induction rule with
  | maximumAllowableTags name key max overflow ih =>
      refine step _ fun inner is_inner => ?_
      obtain rfl := Option.some.inj is_inner
      exact ih
  | _ => exact step _ (by simp [Rule.draft])

/-! ## Configs -/

namespace Value

theorem logLevelOfEntries_eq {level : String} {entries : List (String × Value)}
    (each : ∀ e ∈ entries, e = ("log_level", .text level)) (known : Option String) :
    logLevelOfEntries entries known =
      .ok (if "log_level" ∈ entries.map Prod.fst then some level else known) := by
  induction entries generalizing known with
  | nil => rw [logLevelOfEntries, List.map_nil, if_neg List.not_mem_nil]
  | cons e rest ih =>
      obtain ⟨rfl, rest⟩ := List.forall_mem_cons.1 each
      refine (ih rest (some level)).trans ?_
      simp only [List.map_cons, List.mem_cons, true_or, if_true, ite_self]

/-- A section that leaves its level out says the same as the default. -/
theorem asObservability_of_spelled {level : String} {v : Value}
    (spelled : Record [⟨"log_level", Spells.text level, level = "info"⟩] v) :
    ∃ found, v.asObservability = .ok found ∧ found.getD "info" = level := by
  cases spelled with
  | @table entries written =>
      have each : ∀ e ∈ entries, e = ("log_level", .text level) := by
        intro e listed
        obtain ⟨form, mem, key, own⟩ := written.exists_form e listed
        obtain rfl := List.mem_singleton.1 mem
        exact Prod.ext key own
      refine ⟨_, logLevelOfEntries_eq each none, ?_⟩
      rcases written.written_or_omissible List.mem_cons_self with has | omissible
      · rw [if_pos has, Option.getD_some]
      · split
        · rfl
        · exact omissible.symm
  | array written =>
      cases written with
      | cons own written =>
          cases written
          cases own
          exact ⟨some level, rfl, rfl⟩

/-- What has been read of a config after some entries: the rules if they were among these, and a
    level that agrees with the section if that was. -/
theorem configParts_eq {c : ChainConfig} {entries : List (String × Value)}
    (each : ∀ e ∈ entries, ∃ form ∈ c.forms, e.1 = form.key ∧ form.Spelled e.2)
    (known : Option String) (rules : Option (List Rule)) :
    ∃ level, configParts entries (known, rules) =
        .ok (level, if "filters" ∈ entries.map Prod.fst then some c.rules else rules) ∧
      (level.getD "info" = c.logLevel ∨
        level = known ∧ "observability" ∉ entries.map Prod.fst) := by
  induction entries generalizing known rules with
  | nil => exact ⟨known, rfl, .inr ⟨rfl, List.not_mem_nil⟩⟩
  | cons e rest ih =>
      obtain ⟨⟨form, mem, key, own⟩, rest⟩ := List.forall_mem_cons.1 each
      obtain ⟨k, v⟩ := e
      rcases List.mem_cons.1 mem with rfl | mem
      · obtain rfl : k = "observability" := key
        obtain ⟨level, found, agrees⟩ := asObservability_of_spelled own
        obtain ⟨last, told, last_agrees⟩ := ih rest level rules
        refine ⟨last, ?_, .inl ?_⟩
        · rw [configParts, if_neg (by decide), if_pos rfl, found]
          refine told.trans ?_
          simp only [List.map_cons, List.mem_cons, String.reduceEq, false_or]
        · rcases last_agrees with done | ⟨rfl, -⟩
          · exact done
          · exact agrees
      · obtain rfl := List.mem_singleton.1 mem
        obtain rfl : k = "filters" := key
        obtain ⟨found, -⟩ := readsAs_list (fun rule _ => readsAs_rule rule) v own
        obtain ⟨last, told, last_agrees⟩ := ih rest known (some c.rules)
        refine ⟨last, ?_, ?_⟩
        · rw [configParts, if_pos rfl, found]
          refine told.trans ?_
          simp only [List.map_cons, List.mem_cons, true_or, if_true, ite_self]
        · refine last_agrees.imp_right fun ⟨same, absent⟩ => ⟨same, ?_⟩
          simpa only [List.map_cons, List.mem_cons, String.reduceEq, false_or] using absent

end Value

namespace ChainConfig

theorem decode_of_spelled {c : ChainConfig} {root : List (String × Value)}
    (spelled : c.Spelled root) : decode root = .ok c := by
  obtain ⟨level, told, agrees⟩ := Value.configParts_eq spelled.exists_form none none
  have level_eq : level.getD "info" = c.logLevel := by
    rcases agrees with agrees | ⟨rfl, absent⟩
    · exact agrees
    · rcases spelled.written_or_omissible List.mem_cons_self with has | omissible
      · exact absurd has absent
      · exact omissible.symm
  have rules_eq : (if "filters" ∈ root.map Prod.fst then some c.rules else none).getD [] =
      c.rules := by
    rcases spelled.written_or_omissible (List.mem_cons_of_mem _ List.mem_cons_self)
      with has | omissible
    · rw [if_pos has, Option.getD_some]
    · split
      · rfl
      · exact Eq.symm omissible
  rw [decode, told]
  exact congrArg Except.ok (congrArg₂ ChainConfig.mk level_eq rules_eq)

/-- Every config can be spelled, and whatever spells it is decoded to it. -/
theorem decode_spelled (c : ChainConfig) :
    (∃ root, c.Spelled root) ∧ ∀ root, c.Spelled root → decode root = .ok c :=
  ⟨c.exists_spelled, fun _ => decode_of_spelled⟩

/-- Tables and arrays may be mixed, and an integer may stand for a double. -/
theorem decode_spelled_mixed :
    let overflow : Rule := .minExpected ⟨"m", .distributionSummary, none, some (.ofInt 5)⟩
    let c : ChainConfig := { rules := [
      .maximumAllowableTags "m" "k" 3 overflow, .replaceTagValues "k" "r" []] }
    let root : List (String × Value) := [("filters", .array [
      .array [.text "maximum_allowable_tags", .text "m", .text "k", .integer 3,
        .table [("value", .integer 5), ("meter_type", .text "distribution_summary"),
          ("prefix", .text "m"), ("type", .text "min_expected")]],
      .table [("replacement", .text "r"), ("tag_key", .text "k"),
        ("type", .text "replace_tag_values")]])]
    c.Spelled root ∧ decode root = .ok c := by
  intro overflow c root
  have overflow_spelled : overflow.Spelled
      (.table [("value", .integer 5), ("meter_type", .text "distribution_summary"),
        ("prefix", .text "m"), ("type", .text "min_expected")]) := by
    refine .table ⟨_, .written rfl (.written rfl (.written rfl (.omitted trivial
      (.written (.inr ⟨5, rfl, rfl, rfl⟩) .nil)))), ?_⟩
    exact List.reverse_perm ([("type", .text "min_expected"), ("prefix", .text "m"),
      ("meter_type", .text "distribution_summary"), ("value", .integer 5)] : List (String × Value))
  have limit_spelled : Rule.Spelled (.maximumAllowableTags "m" "k" 3 overflow) _ :=
    .array (.cons rfl (.cons rfl (.cons rfl (.cons rfl (.cons overflow_spelled .nil)))))
  have replaced_spelled : Rule.Spelled (.replaceTagValues "k" "r" [])
      (.table [("replacement", .text "r"), ("tag_key", .text "k"),
        ("type", .text "replace_tag_values")]) := by
    refine .table ⟨_, .written rfl (.written rfl (.written rfl (.omitted rfl .nil))), ?_⟩
    exact List.reverse_perm ([("type", .text "replace_tag_values"), ("tag_key", .text "k"),
      ("replacement", .text "r")] : List (String × Value))
  have filters_spelled : Spells.list Rule.Spelled c.rules _ :=
    ⟨_, rfl, .cons limit_spelled (.cons replaced_spelled .nil)⟩
  have spelled : c.Spelled root := ⟨_, .omitted rfl (.written filters_spelled .nil), .refl _⟩
  exact ⟨spelled, (decode_spelled c).2 root spelled⟩

end ChainConfig

end MeterGate
