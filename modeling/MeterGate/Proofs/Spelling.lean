import MeterGate.Config.Rule
import MeterGate.Value
import Mathlib.Data.List.Forall2
import Mathlib.Data.List.Perm.Basic

set_option autoImplicit false

/-! # Ways to write a config down

There are many ways to write one config as a document. A record may be a table with its fields in
any order, or the array of all of its fields; what a field says by default may be left out of a
table; a double to which an integer rounds may be written as that integer. A value that follows
these rules *spells* the config, whatever reads it: the keys and the order of fields are given here
once more, apart from those of the decoder.

Every rule and every config can be spelled (`Rule.exists_spelled`, `ChainConfig.exists_spelled`). -/

namespace MeterGate

/-! ## Scalars and lists -/

namespace Spells

/-- A text is written as such. -/
def text (s : String) (v : Value) : Prop := v = .text s

/-- A word is written as an integer. -/
def word (n : UInt64) (v : Value) : Prop := v = .integer n.toNat

/-- A double is written as such, or as an integer of 64 bits that rounds to it. -/
def real (x : Binary64) (v : Value) : Prop :=
  v = .real x ∨ ∃ n : Int, isWord n = true ∧ Binary64.ofInt n = x ∧ v = .integer n

/-- A list is an array of its items, in order. -/
def list {α : Type} (spells : α → Value → Prop) (as : List α) (v : Value) : Prop :=
  ∃ items, v = .array items ∧ List.Forall₂ spells as items

theorem exists_list {α : Type} {spells : α → Value → Prop} {as : List α}
    (each : ∀ a ∈ as, ∃ v, spells a v) : ∃ v, list spells as v := by
  suffices ∃ items, List.Forall₂ spells as items by
    obtain ⟨items, spelled⟩ := this
    exact ⟨.array items, items, rfl, spelled⟩
  induction as with
  | nil => exact ⟨[], .nil⟩
  | cons a rest ih =>
      obtain ⟨first, each⟩ := List.forall_mem_cons.1 each
      obtain ⟨v, spelled⟩ := first
      obtain ⟨items, rest_spelled⟩ := ih each
      exact ⟨v :: items, .cons spelled rest_spelled⟩

end Spells

/-! ## Records -/

/-- How a field of a record is written: its key, the values that spell it, and whether a table may
    do without it. -/
structure FieldForm where
  key : String
  Spelled : Value → Prop
  Omissible : Prop

namespace FieldForm

/-- A field that is always written. -/
def always (key : String) (spelled : Value → Prop) : FieldForm := ⟨key, spelled, False⟩

/-- A field that is written exactly if it has a value. -/
def ifGiven {α : Type} (key : String) (spells : α → Value → Prop) : Option α → FieldForm
  | some a => always key (spells a)
  | none => ⟨key, fun _ => False, True⟩

/-- A field can be written, or left out. -/
def Writable (form : FieldForm) : Prop := (∃ v, form.Spelled v) ∨ form.Omissible

theorem writable_ifGiven {α : Type} {key : String} {spells : α → Value → Prop}
    (h : ∀ a, ∃ v, spells a v) (a? : Option α) : (ifGiven key spells a?).Writable := by
  cases a? with
  | none => exact .inr trivial
  | some a => exact .inl (h a)

end FieldForm

/-- The entries of a table for the fields of a record, in the order of the fields. -/
inductive Entries : List FieldForm → List (String × Value) → Prop where
  | nil : Entries [] []
  | written {form : FieldForm} {forms : List FieldForm} {v : Value}
      {entries : List (String × Value)} :
      form.Spelled v → Entries forms entries →
      Entries (form :: forms) ((form.key, v) :: entries)
  | omitted {form : FieldForm} {forms : List FieldForm} {entries : List (String × Value)} :
      form.Omissible → Entries forms entries → Entries (form :: forms) entries

namespace Entries

variable {forms : List FieldForm} {entries : List (String × Value)}

theorem exists_form (h : Entries forms entries) {e : String × Value} (listed : e ∈ entries) :
    ∃ form ∈ forms, e.1 = form.key ∧ form.Spelled e.2 := by
  induction h with
  | nil => cases listed
  | @written form forms v entries spelled _ ih =>
      rcases List.mem_cons.1 listed with rfl | listed
      · exact ⟨form, List.mem_cons_self, rfl, spelled⟩
      · obtain ⟨other, mem, own⟩ := ih listed
        exact ⟨other, List.mem_cons_of_mem _ mem, own⟩
  | omitted _ _ ih =>
      obtain ⟨other, mem, own⟩ := ih listed
      exact ⟨other, List.mem_cons_of_mem _ mem, own⟩

theorem written_or_omissible (h : Entries forms entries) {form : FieldForm} (mem : form ∈ forms) :
    form.key ∈ entries.map Prod.fst ∨ form.Omissible := by
  induction h with
  | nil => cases mem
  | written _ _ ih =>
      rcases List.mem_cons.1 mem with rfl | mem
      · exact .inl List.mem_cons_self
      · exact (ih mem).imp_left (List.mem_cons_of_mem _)
  | omitted omissible _ ih =>
      rcases List.mem_cons.1 mem with rfl | mem
      · exact .inr omissible
      · exact ih mem

theorem exists_of_writable (h : ∀ form ∈ forms, form.Writable) :
    ∃ entries, Entries forms entries := by
  induction forms with
  | nil => exact ⟨[], .nil⟩
  | cons form forms ih =>
      obtain ⟨own, rest⟩ := List.forall_mem_cons.1 h
      obtain ⟨entries, spelled⟩ := ih rest
      rcases own with ⟨v, own⟩ | omissible
      · exact ⟨_, .written own spelled⟩
      · exact ⟨_, .omitted omissible spelled⟩

end Entries

/-- The entries of a table for the fields of a record, in any order. -/
def TableOf (forms : List FieldForm) (entries : List (String × Value)) : Prop :=
  ∃ ordered, Entries forms ordered ∧ entries.Perm ordered

namespace TableOf

variable {forms : List FieldForm} {entries : List (String × Value)}

theorem exists_form (h : TableOf forms entries) :
    ∀ e ∈ entries, ∃ form ∈ forms, e.1 = form.key ∧ form.Spelled e.2 := by
  obtain ⟨ordered, written, order⟩ := h
  exact fun e listed => written.exists_form (order.mem_iff.1 listed)

theorem written_or_omissible (h : TableOf forms entries) {form : FieldForm} (mem : form ∈ forms) :
    form.key ∈ entries.map Prod.fst ∨ form.Omissible := by
  obtain ⟨ordered, written, order⟩ := h
  exact (written.written_or_omissible mem).imp_left (order.map Prod.fst).mem_iff.2

theorem exists_of_writable (h : ∀ form ∈ forms, form.Writable) :
    ∃ entries, TableOf forms entries := by
  obtain ⟨entries, written⟩ := Entries.exists_of_writable h
  exact ⟨entries, entries, written, .refl _⟩

end TableOf

/-- A record is a table with its fields in any order, or the array of all its fields in theirs. -/
inductive Record (forms : List FieldForm) : Value → Prop where
  | table {entries : List (String × Value)} : TableOf forms entries → Record forms (.table entries)
  | array {items : List Value} : List.Forall₂ FieldForm.Spelled forms items →
      Record forms (.array items)

theorem Record.exists_of_writable {forms : List FieldForm} (h : ∀ form ∈ forms, form.Writable) :
    ∃ v, Record forms v := by
  obtain ⟨entries, written⟩ := TableOf.exists_of_writable h
  exact ⟨.table entries, .table written⟩

/-! ## Rules -/

/-- A tag has a key and a value. -/
def Tag.Spelled (t : Tag) : Value → Prop :=
  Record [.always "key" (Spells.text t.key), .always "value" (Spells.text t.value)]

/-- The fields of a bound. -/
def ExpectedBound.forms (b : ExpectedBound) : List FieldForm :=
  [.always "prefix" (Spells.text b.start), .always "meter_type" (Spells.text b.type.label),
   .ifGiven "millis" Spells.word b.millis, .ifGiven "value" Spells.real b.value]

namespace Rule

/-- The field that says what a rule describes. -/
def typeForm (kind : RuleKind) : FieldForm := .always "type" (Spells.text kind.label)

/-- The fields of a rule behind its type. -/
def forms : Rule → List FieldForm
  | .commonTags tags => [.always "tags" (Spells.list Tag.Spelled tags)]
  | .renameTag start fromKey toKey =>
      [.always "prefix" (Spells.text start), .always "from_key" (Spells.text fromKey),
       .always "to_key" (Spells.text toKey)]
  | .ignoreTags keys => [.always "keys" (Spells.list Spells.text keys)]
  | .replaceTagValues key replacement exceptions =>
      [.always "tag_key" (Spells.text key), .always "replacement" (Spells.text replacement),
       ⟨"exceptions", Spells.list Spells.text exceptions, exceptions = []⟩]
  | .accept | .deny => []
  | .acceptNameStartsWith start | .denyNameStartsWith start | .denyUnlessNameStartsWith start =>
      [.always "prefix" (Spells.text start)]
  | .maximumAllowableMetrics max => [.always "max" (Spells.word max)]
  | .maximumAllowableTags name key max overflow =>
      [.always "name" (Spells.text name), .always "tag_key" (Spells.text key),
       .always "max_values" (Spells.word max),
       .always "on_max_reached" (Record (typeForm overflow.kind :: overflow.forms))]
  | .maxExpected b | .minExpected b => b.forms

/-- A rule is a record of its type and its fields. -/
def Spelled (rule : Rule) : Value → Prop := Record (typeForm rule.kind :: rule.forms)

end Rule

/-! ## Configs -/

namespace ChainConfig

/-- The section for the log level, and the rules; what is the same by default may be left out. -/
def forms (c : ChainConfig) : List FieldForm :=
  [⟨"observability", Record [⟨"log_level", Spells.text c.logLevel, c.logLevel = "info"⟩],
    c.logLevel = "info"⟩,
   ⟨"filters", Spells.list Rule.Spelled c.rules, c.rules = []⟩]

/-- The root table of a document spells a config. -/
def Spelled (c : ChainConfig) (root : List (String × Value)) : Prop := TableOf c.forms root

end ChainConfig

/-! ## Everything can be spelled -/

theorem Spells.exists_text (s : String) : ∃ v, text s v := ⟨_, rfl⟩

theorem Spells.exists_word (n : UInt64) : ∃ v, word n v := ⟨_, rfl⟩

theorem Spells.exists_real (x : Binary64) : ∃ v, real x v := ⟨_, .inl rfl⟩

theorem Tag.exists_spelled (t : Tag) : ∃ v, t.Spelled v := by
  refine Record.exists_of_writable (List.forall_mem_cons.2 ⟨?_, List.forall_mem_singleton.2 ?_⟩)
  · exact .inl (Spells.exists_text _)
  · exact .inl (Spells.exists_text _)

theorem Rule.exists_spelled (rule : Rule) : ∃ v, rule.Spelled v := by
  suffices ∀ form ∈ rule.forms, form.Writable from
    Record.exists_of_writable (List.forall_mem_cons.2 ⟨.inl (Spells.exists_text _), this⟩)
  have text (key s : String) : (FieldForm.always key (Spells.text s)).Writable :=
    .inl (Spells.exists_text s)
  have word (key : String) (n : UInt64) : (FieldForm.always key (Spells.word n)).Writable :=
    .inl (Spells.exists_word n)
  have texts (key : String) (ss : List String) (omissible : Prop) :
      (FieldForm.mk key (Spells.list Spells.text ss) omissible).Writable :=
    .inl (Spells.exists_list fun s _ => Spells.exists_text s)
  have bound (b : ExpectedBound) : ∀ form ∈ b.forms, form.Writable := by
    simp only [ExpectedBound.forms, List.forall_mem_cons, text, true_and]
    refine ⟨FieldForm.writable_ifGiven Spells.exists_word _,
      FieldForm.writable_ifGiven Spells.exists_real _, by simp⟩
  induction rule with
  | commonTags tags =>
      refine List.forall_mem_singleton.2 (.inl ?_)
      exact Spells.exists_list fun t _ => t.exists_spelled
  | ignoreTags keys => exact List.forall_mem_singleton.2 (texts _ _ _)
  | maximumAllowableTags name key max overflow ih =>
      simp only [forms, List.forall_mem_cons, text, word, true_and]
      refine ⟨.inl (Record.exists_of_writable (List.forall_mem_cons.2 ⟨text _ _, ih⟩)), by simp⟩
  | maxExpected b | minExpected b => exact bound b
  | _ => simp [forms, text, word, texts]

theorem ChainConfig.exists_spelled (c : ChainConfig) : ∃ root, c.Spelled root := by
  have level : ∃ v, Record [⟨"log_level", Spells.text c.logLevel, c.logLevel = "info"⟩] v :=
    Record.exists_of_writable (List.forall_mem_singleton.2 (.inl (Spells.exists_text _)))
  have rules := Spells.exists_list fun rule (_ : rule ∈ c.rules) => rule.exists_spelled
  have writable : ∀ form ∈ c.forms, form.Writable :=
    List.forall_mem_cons.2 ⟨.inl level, List.forall_mem_singleton.2 (.inl rules)⟩
  exact TableOf.exists_of_writable writable

end MeterGate
