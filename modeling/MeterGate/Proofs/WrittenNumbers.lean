import Mathlib
import MeterGate.Load
import MeterGate.Proofs.Collapse
import MeterGate.Proofs.Gaps
import MeterGate.Proofs.Holes
import MeterGate.Proofs.NearestNatural

set_option autoImplicit false

/-! # Numbers in rules

A count in a rule is what the document says, if this fits into an unsigned 64-bit word, and
otherwise the document is no config: nothing is wrapped, cut off or rounded. A real number is never
taken for a count, not even one that is whole. The bound of a summary is the double nearest to an
integer of 64 bits (`ChainConfig.written_numbers`). This is so at any place of a document that is
good otherwise, whatever stands around it, because a rule with a hole depends on how the value in
the hole is read, and on nothing else. -/

namespace MeterGate

/-! ## Counts and bounds of rules -/

namespace Rule

/-- The count in a rule: that of a limit, or the milliseconds of a bound. -/
def count? : Rule → Option UInt64
  | .maximumAllowableMetrics max | .maximumAllowableTags _ _ max _ => some max
  | .maxExpected b | .minExpected b => b.millis
  | _ => none

/-- A rule with another count. -/
def withCount (n : UInt64) : Rule → Rule
  | .maximumAllowableMetrics _ => .maximumAllowableMetrics n
  | .maximumAllowableTags name key _ overflow => .maximumAllowableTags name key n overflow
  | .maxExpected b => .maxExpected { b with millis := some n }
  | .minExpected b => .minExpected { b with millis := some n }
  | rule => rule

/-- The number that a rule bounds summaries by. -/
def bound? : Rule → Option Binary64
  | .maxExpected b | .minExpected b => b.value
  | _ => none

/-- A rule with another number to bound summaries by. -/
def withBound (x : Binary64) : Rule → Rule
  | .maxExpected b => .maxExpected { b with value := some x }
  | .minExpected b => .minExpected { b with value := some x }
  | rule => rule

end Rule

/-- The fields that take a count. -/
def RuleField.IsCount (field : RuleField) : Prop :=
  field = .max ∨ field = .maxValues ∨ field = .millis

theorem Rule.FieldHole.mem_fields {kind : RuleKind} {field : RuleField} {fill : Value → Value}
    (hole : FieldHole kind field fill) : field ∈ kind.fields := by
  cases hole with
  | entry listed => exact listed
  | item place => exact List.mem_of_getElem? place

theorem Rule.Hole.mem_fields {kind : RuleKind} {field : RuleField} {depth : Nat}
    {fill : Value → Value} (hole : Hole kind field depth fill) : field ∈ kind.fields := by
  induction hole with
  | here hole => exact hole.mem_fields
  | inOverflow _ _ ih => exact ih

namespace RuleDraft

variable {kind : RuleKind} {d : RuleDraft} {rule : Rule}

/-- A rule with a count to be read is the rule with the count that is read. -/
theorem refill_count {field : RuleField} (listed : field ∈ kind.fields) (counted : field.IsCount)
    (finished : d.finish kind = .ok rule) :
    (∀ n, (rule.withCount n).count? = some n) ∧
    ∃ wanted, ∀ v, d.refill kind field v =
      Value.check (v.numberFault? heldInteger?) >>= fun _ =>
        v.asWord wanted >>= fun n => .ok (rule.withCount n) := by
  rcases counted with rfl | rfl | rfl
  · cases kind with
    | maximumAllowableMetrics =>
        obtain ⟨max, -, told⟩ := ok_of_bind_ok finished
        cases told
        refine ⟨fun n => rfl, .size, fun v => bind_congr fun _ => ?_⟩
        simp only [readAny, read, bind_assoc, pure_bind]
        rfl
    | _ => simp [RuleKind.fields] at listed
  · cases kind with
    | maximumAllowableTags =>
        obtain ⟨name, has_name, finished⟩ := ok_of_bind_ok finished
        obtain ⟨key, has_key, finished⟩ := ok_of_bind_ok finished
        obtain ⟨max, -, finished⟩ := ok_of_bind_ok finished
        obtain ⟨overflow, has_overflow, told⟩ := ok_of_bind_ok finished
        cases told
        refine ⟨fun n => rfl, .size, fun v => bind_congr fun _ => ?_⟩
        simp only [readAny, read, bind_assoc, pure_bind, finish, take, reduceCtorEq, if_false,
          if_true, has_name, has_key, has_overflow]
        rfl
    | _ => simp [RuleKind.fields] at listed
  · cases kind with
    | maxExpected | minExpected =>
        obtain ⟨b, has_bound, told⟩ := ok_of_bind_ok finished
        cases told
        obtain ⟨start, has_start, has_bound⟩ := ok_of_bind_ok has_bound
        obtain ⟨type, has_type, told⟩ := ok_of_bind_ok has_bound
        cases told
        refine ⟨fun n => rfl, .word, fun v => bind_congr fun _ => ?_⟩
        simp only [readAny, read, bind_assoc, pure_bind, finish, bound, take, reduceCtorEq,
          if_false, if_true, has_start, has_type]
        rfl
    | _ => simp [RuleKind.fields] at listed

/-- A rule with a number for its bound to be read is the rule with the number that is read. -/
theorem refill_value (listed : RuleField.value ∈ kind.fields)
    (finished : d.finish kind = .ok rule) :
    (∀ x, (rule.withBound x).bound? = some x) ∧
    ∀ v, d.refill kind .value v =
      Value.check (v.numberFault? heldInteger?) >>= fun _ =>
        v.asReal >>= fun x => .ok (rule.withBound x) := by
  cases kind with
  | maxExpected | minExpected =>
      obtain ⟨b, has_bound, told⟩ := ok_of_bind_ok finished
      cases told
      obtain ⟨start, has_start, has_bound⟩ := ok_of_bind_ok has_bound
      obtain ⟨type, has_type, told⟩ := ok_of_bind_ok has_bound
      cases told
      refine ⟨fun n => rfl, fun v => bind_congr fun _ => ?_⟩
      simp only [readAny, read, bind_assoc, pure_bind, finish, bound, take, reduceCtorEq,
        if_false, if_true, has_start, has_type]
      rfl
  | _ => simp [RuleKind.fields] at listed

theorem kind_of_finish (finished : d.finish kind = .ok rule) : rule.kind = kind := by
  cases kind with
  | accept | deny =>
      cases finished
      rfl
  | commonTags | ignoreTags | acceptNameStartsWith | denyNameStartsWith | denyUnlessNameStartsWith
  | maximumAllowableMetrics | maxExpected | minExpected =>
      obtain ⟨_, -, told⟩ := ok_of_bind_ok finished
      cases told
      rfl
  | replaceTagValues =>
      obtain ⟨_, -, finished⟩ := ok_of_bind_ok finished
      obtain ⟨_, -, told⟩ := ok_of_bind_ok finished
      cases told
      rfl
  | renameTag =>
      obtain ⟨_, -, finished⟩ := ok_of_bind_ok finished
      obtain ⟨_, -, finished⟩ := ok_of_bind_ok finished
      obtain ⟨_, -, told⟩ := ok_of_bind_ok finished
      cases told
      rfl
  | maximumAllowableTags =>
      obtain ⟨_, -, finished⟩ := ok_of_bind_ok finished
      obtain ⟨_, -, finished⟩ := ok_of_bind_ok finished
      obtain ⟨_, -, finished⟩ := ok_of_bind_ok finished
      obtain ⟨_, -, told⟩ := ok_of_bind_ok finished
      cases told
      rfl

end RuleDraft

/-! ## Values that are read -/

namespace Value

theorem asWord_of_range {n : Int} (low : 0 ≤ n) (high : n < 2 ^ 64) (wanted : Wanted) :
    (integer n).asWord wanted = .ok (.ofNat n.toNat) := by
  have fits : isUInt64 n = true := by
    simp only [isUInt64, Bool.and_eq_true, decide_eq_true_eq]
    omega
  rw [asWord, if_pos fits]

theorem asWord_error {n : Int} (h : ¬ (0 ≤ n ∧ n < 2 ^ 64)) (wanted : Wanted) :
    ∃ fault, (integer n).asWord wanted = .error fault := by
  have misfit : ¬ isUInt64 n = true := by
    simp only [isUInt64, Bool.and_eq_true, decide_eq_true_eq]
    omega
  rw [asWord, if_neg misfit]
  split
  · exact ⟨_, rfl⟩
  · exact ⟨_, rfl⟩

theorem isWord_iff_range {n : Int} : isWord n = true ↔ -2 ^ 63 ≤ n ∧ n < 2 ^ 64 := by
  rw [isWord_iff]
  omega

/-- What cannot be read is refused, if the look at its numbers has not refused it already. -/
theorem check_bind_error {α β : Type} {fault? : Option DecodeFault} {x : Except DecodeFault α}
    (h : ∃ fault, x = .error fault) (f : α → Except DecodeFault β) :
    ∃ fault, (check fault? >>= fun _ => x >>= f) = .error fault := by
  obtain ⟨fault, rfl⟩ := h
  cases fault? with
  | none => exact ⟨fault, rfl⟩
  | some first => exact ⟨first, rfl⟩

end Value

/-! ## Documents -/

namespace ChainConfig

variable {kind : RuleKind} {field : RuleField} {index depth : Nat}
  {fill : Value → List (String × Value)}

theorem Hole.mem_fields (hole : Hole kind field index depth fill) : field ∈ kind.fields := by
  cases hole with
  | intro _ _ hole => exact hole.mem_fields

/-- If a field is read in some way and then set, what a document says for it is what is set, and
    nothing else changes; and if it cannot be read, the document is no config. -/
theorem decode_field {α : Type} {d : RuleDraft} {leaf : Rule} {c : ChainConfig}
    (at_place : c.ruleAt index depth = some leaf)
    (decode_eq : ∀ v, decode (fill v) =
      (fun leaf => c.modifyRule index depth fun _ => leaf) <$> d.refill kind field v)
    {read : Value → Except DecodeFault α} {set : α → Rule → Rule}
    (refill_eq : ∀ v, d.refill kind field v =
      Value.check (v.numberFault? heldInteger?) >>= fun _ => read v >>= fun a => .ok (set a leaf))
    (v : Value) :
    (∀ a, v.Plain → read v = .ok a → decode (fill v) = .ok (c.modifyRule index depth (set a))) ∧
    ((∃ fault, read v = .error fault) → ∃ fault, decode (fill v) = .error fault) := by
  constructor
  · intro a plain own
    rw [decode_eq, refill_eq, own, show v.numberFault? heldInteger? = none from plain]
    exact congrArg Except.ok (modifyRule_congr at_place rfl)
  · intro unread
    obtain ⟨fault, refused⟩ := Value.check_bind_error unread fun a => .ok (set a leaf)
    exact ⟨fault, by rw [decode_eq, refill_eq, refused]; rfl⟩

theorem depth_eq_zero {rule inner : Rule} (good : rule.fault? = none)
    (h : rule.overflowAt depth = some inner) (limiter : inner.kind.isLimiter = true) :
    depth = 0 := by
  cases depth with
  | zero => rfl
  | succ depth =>
      cases rule with
      | maximumAllowableTags name key max overflow =>
          obtain ⟨no_limiter, -⟩ := Rule.overflow_of_fault? good
          have same : overflow = inner := by
            cases depth with
            | zero => exact Option.some.inj h
            | succ depth =>
                cases overflow with
                | maximumAllowableTags => cases no_limiter
                | _ => cases h
          rw [same, limiter] at no_limiter
          cases no_limiter
      | _ => cases h

theorem buildAll_ruleAt {c : ChainConfig} (valid : c.validate = .ok ()) {rule : Rule}
    (at_place : c.ruleAt index depth = some rule) (limiter : rule.kind.isLimiter = true)
    (s₀ : Store) : ∃ s, (Rule.buildAll c.rules s₀).1[index]? = some (rule.build s).1 := by
  obtain ⟨top, listed, behind⟩ := Option.bind_eq_some_iff.1 at_place
  obtain rfl := depth_eq_zero
    (fault?_eq_none_of_valid valid (List.mem_of_getElem? listed)) behind limiter
  cases behind
  have built := Rule.getElem?_buildAll c.rules s₀ index
  rw [listed, Option.map_some] at built
  exact ⟨_, built⟩

section

variable (hole : Hole kind field index depth fill) {filler : Value} {c : ChainConfig}
  (good : decode (fill filler) = .ok c)

include hole good

/-- A count is what is said if this fits, and there is none otherwise. -/
theorem decode_count (counted : field.IsCount) :
    (∀ N : Int, 0 ≤ N → N < 2 ^ 64 → ∃ n : UInt64, (n.toNat : Int) = N ∧
      decode (fill (.integer N)) = .ok (c.modifyRule index depth (Rule.withCount n)) ∧
      ((c.modifyRule index depth (Rule.withCount n)).ruleAt index depth >>= Rule.count?) =
        some n) ∧
    (∀ N : Int, ¬ (0 ≤ N ∧ N < 2 ^ 64) → ∃ fault, decode (fill (.integer N)) = .error fault) ∧
    (∀ x, ∃ fault, decode (fill (.real x)) = .error fault) ∧
    ∃ fault, decode (fill .vastReal) = .error fault := by
  obtain ⟨d, leaf, at_place, finished, decode_eq⟩ := hole.decode_eq good
  obtain ⟨count_eq, wanted, refill_eq⟩ :=
    RuleDraft.refill_count hole.mem_fields counted finished
  have written := decode_field at_place decode_eq refill_eq
  refine ⟨fun N low high => ⟨.ofNat N.toNat, ?_, ?_, ?_⟩, fun N misfit => ?_, fun x => ?_, ?_⟩
  · rw [UInt64.toNat_ofNat_of_lt' (by omega : N.toNat < 2 ^ 64)]
    exact Int.toNat_of_nonneg low
  · refine (written _).1 _ (Value.plain_integer ?_) (Value.asWord_of_range low high wanted)
    exact Value.isWord_iff_range.2 ⟨by omega, high⟩
  · rw [ruleAt_modifyRule at_place]
    exact count_eq _
  · exact (written _).2 (Value.asWord_error misfit wanted)
  · exact (written _).2 ⟨_, rfl⟩
  · exact (written _).2 ⟨_, rfl⟩

/-- A bound is the double nearest to what is said if this fits, and there is none otherwise. -/
theorem decode_bound (bounding : field = .value) :
    (∀ N : Int, -2 ^ 63 ≤ N → N < 2 ^ 64 → ∃ x, Binary64.IsNearest N x ∧
      decode (fill (.integer N)) = .ok (c.modifyRule index depth (Rule.withBound x)) ∧
      ((c.modifyRule index depth (Rule.withBound x)).ruleAt index depth >>= Rule.bound?) =
        some x) ∧
    ∀ N : Int, ¬ (-2 ^ 63 ≤ N ∧ N < 2 ^ 64) →
      ∃ fault, decode (fill (.integer N)) = .error fault := by
  subst bounding
  obtain ⟨d, leaf, at_place, finished, decode_eq⟩ := hole.decode_eq good
  obtain ⟨bound_eq, refill_eq⟩ := RuleDraft.refill_value hole.mem_fields finished
  have written := decode_field at_place decode_eq refill_eq
  refine ⟨fun N low high => ⟨.ofInt N, ?_, ?_, ?_⟩, fun N misfit => ?_⟩
  · exact (Binary64.isNearest_iff (by omega) _).2 rfl
  · have fits := Value.isWord_iff_range.2 ⟨low, high⟩
    refine (written _).1 _ (Value.plain_integer fits) ?_
    rw [Value.asReal, if_pos fits]
  · rw [ruleAt_modifyRule at_place]
    exact bound_eq _
  · refine (written _).2 ?_
    rw [Value.asReal, if_neg (mt Value.isWord_iff_range.1 misfit)]
    exact ⟨_, rfl⟩

end

theorem count_of_decode (hole : Hole kind field index depth fill) (counted : field.IsCount)
    {N : Int} {c : ChainConfig} (decoded : decode (fill (.integer N)) = .ok c) :
    ∃ rule n, c.ruleAt index depth = some rule ∧ rule.kind = kind ∧ rule.count? = some n ∧
      (n.toNat : Int) = N := by
  obtain ⟨d, rule, at_place, finished, -⟩ := hole.decode_eq decoded
  obtain ⟨exact_count, refused, -⟩ := decode_count hole decoded counted
  have fits : 0 ≤ N ∧ N < 2 ^ 64 := by
    by_contra misfit
    obtain ⟨fault, failed⟩ := refused N misfit
    cases decoded.symm.trans failed
  obtain ⟨n, same, decoded', counts⟩ := exact_count N fits.1 fits.2
  rw [← Except.ok.inj (decoded.symm.trans decoded'), at_place] at counts
  exact ⟨rule, n, at_place, RuleDraft.kind_of_finish finished, counts, same⟩

/-- A limit that is built from a good document has the cap that the document says. -/
theorem build_of_decode (hole : Hole kind field index depth fill) {N : Int} {loaded : ChainConfig}
    (decoded : decode (fill (.integer N)) = .ok loaded) (valid : loaded.validate = .ok ())
    (w : World Store) (order : TableOrder) :
    ∃ filters built, loaded.build w order = .ok filters built ∧
      (field = .max → ∃ place cap, filters[index]? = some (.metricCap place cap) ∧
        (cap : Int) = N) ∧
      (field = .maxValues → ∃ place limit overflow,
        filters[index]? = some (.tagCap place limit overflow) ∧ (limit.max : Int) = N) := by
  have built_order : loaded.build w order = loaded.build w := by
    rw [build, build, valid, (validate_congr loaded .asPut order).1 valid]
  refine ⟨_, _, built_order.trans (build_of_valid valid w), ?_, ?_⟩
  · rintro rfl
    obtain ⟨rule, n, at_place, of_kind, counts, same⟩ := count_of_decode hole (.inl rfl) decoded
    have limit : kind = .maximumAllowableMetrics := by
      have listed := hole.mem_fields
      revert listed
      cases kind <;> decide
    rw [limit] at of_kind
    obtain ⟨s, built⟩ := buildAll_ruleAt valid at_place (by rw [of_kind]; rfl) w.state
    cases rule with
    | maximumAllowableMetrics max =>
        cases counts
        exact ⟨_, _, built, same⟩
    | _ => cases of_kind
  · rintro rfl
    obtain ⟨rule, n, at_place, of_kind, counts, same⟩ :=
      count_of_decode hole (.inr (.inl rfl)) decoded
    have limit : kind = .maximumAllowableTags := by
      have listed := hole.mem_fields
      revert listed
      cases kind <;> decide
    rw [limit] at of_kind
    obtain ⟨s, built⟩ := buildAll_ruleAt valid at_place (by rw [of_kind]; rfl) w.state
    cases rule with
    | maximumAllowableTags name key max overflow =>
        cases counts
        exact ⟨_, _, _, built, same⟩
    | _ => cases of_kind

/-! ## Texts -/

/-- A text is no config, as everyone who loads it is told. -/
def Refused (text : String) : Prop :=
  ∃ fault, parse text = .error (.undecodable fault) ∧
    ∀ order, ofText text order = .error (.unparsed inMemoryPath (.undecodable fault))

theorem parse_of_read {text : String} {root : List (String × Value)}
    (read : Toml.read? text = some root) :
    parse text = (decode root).mapError .undecodable := by
  rw [parse, read]

theorem refused_of_error {text : String} {root : List (String × Value)}
    (read : Toml.read? text = some root) (h : ∃ fault, decode root = .error fault) :
    Refused text := by
  obtain ⟨fault, h⟩ := h
  have parsed : parse text = .error (.undecodable fault) := by
    rw [parse_of_read read, h]
    rfl
  exact ⟨fault, parsed, fun order => by rw [ofText, parsed]⟩

theorem decode_of_ofText {text : String} {root : List (String × Value)} {c : ChainConfig}
    {order : TableOrder} (read : Toml.read? text = some root)
    (loaded : ofText text order = .ok c) : decode root = .ok c ∧ c.validate = .ok () := by
  rw [ofText, parse_of_read read] at loaded
  cases decoded : decode root with
  | error fault =>
      rw [decoded] at loaded
      cases loaded
  | ok found =>
      rw [decoded] at loaded
      cases valid : found.validate order with
      | error fault => simp [Except.mapError, valid] at loaded
      | ok u =>
          simp only [Except.mapError, valid, Except.ok.injEq] at loaded
          subst loaded
          exact ⟨rfl, (validate_congr found order .asPut).1 valid⟩

/-- A cap in a document. -/
def capDocument (cap : Value) : List (String × Value) :=
  [("filters", .array [.table [("max", cap), ("type", .text "maximum_allowable_metrics")]])]

/-- The milliseconds of a timer's bound, behind a limit. -/
def timerDocument (millis : Value) : List (String × Value) :=
  [("filters", .array [.table [("max_values", .integer 3), ("name", .text "m"),
    ("on_max_reached", .table [("meter_type", .text "timer"), ("millis", millis),
      ("prefix", .text "m"), ("type", .text "max_expected")]),
    ("tag_key", .text "k"), ("type", .text "maximum_allowable_tags")]])]

/-- The bound of a summary. -/
def summaryDocument (value : Value) : List (String × Value) :=
  [("filters", .array [.table [("meter_type", .text "distribution_summary"),
    ("prefix", .text "m"), ("type", .text "min_expected"), ("value", value)]])]

theorem hole_capDocument : Hole .maximumAllowableMetrics .max 0 0 capDocument := by
  have rule : Rule.FieldHole .maximumAllowableMetrics .max fun cap => .table
      ([] ++ ("max", cap) :: [("type", .text "maximum_allowable_metrics")]) :=
    .entry (by decide) (by simp [RuleKind.label]) (by decide) (by decide)
  exact @Hole.intro _ _ 0 0 [] [] [] [] _ (by decide) rfl (.here rule)

theorem hole_timerDocument : Hole .maxExpected .millis 0 1 timerDocument := by
  have limit : Rule.FieldHole .maximumAllowableTags .overflow fun rule => .table
      ([("max_values", .integer 3), ("name", .text "m")] ++ ("on_max_reached", rule) ::
        [("tag_key", .text "k"), ("type", .text "maximum_allowable_tags")]) :=
    .entry (by decide) (by simp [RuleKind.label]) (by decide) (by decide)
  have bound : Rule.FieldHole .maxExpected .millis fun millis => .table
      ([("meter_type", .text "timer")] ++ ("millis", millis) ::
        [("prefix", .text "m"), ("type", .text "max_expected")]) :=
    .entry (by decide) (by simp [RuleKind.label]) (by decide) (by decide)
  exact @Hole.intro _ _ 0 1 [] [] [] [] _ (by decide) rfl (.inOverflow limit (.here bound))

theorem hole_summaryDocument : Hole .minExpected .value 0 0 summaryDocument := by
  have bound : Rule.FieldHole .minExpected .value fun value => .table
      ([("meter_type", .text "distribution_summary"), ("prefix", .text "m"),
        ("type", .text "min_expected")] ++ ("value", value) :: []) :=
    .entry (by decide) (by simp [RuleKind.label]) (by decide) (by decide)
  exact @Hole.intro _ _ 0 0 [] [] [] [] _ (by decide) rfl (.here bound)

theorem gap_capDocument :
    Toml.Gap "[[filters]]\ntype = \"maximum_allowable_metrics\"\nmax = " "\n" capDocument :=
  ⟨by decide +kernel, fun v => by cases v <;> cbv⟩

theorem gap_timerDocument :
    Toml.Gap ("[[filters]]\ntype = \"maximum_allowable_tags\"\nname = \"m\"\n"
        ++ "tag_key = \"k\"\nmax_values = 3\non_max_reached = \x7b type = \"max_expected\", "
        ++ "prefix = \"m\", meter_type = \"timer\", millis = ") " \x7d # in milliseconds\n"
      timerDocument :=
  ⟨by decide +kernel, fun v => by cases v <;> cbv⟩

theorem gap_summaryDocument :
    Toml.Gap "[[filters]]\ntype = \"min_expected\"\nprefix = \"m\"\nvalue = "
      "\nmeter_type = \"distribution_summary\"\n" summaryDocument :=
  ⟨by decide +kernel, fun v => by cases v <;> cbv⟩

end ChainConfig

end MeterGate
