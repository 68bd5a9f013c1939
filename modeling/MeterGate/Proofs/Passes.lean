import MeterGate.Proofs.History

set_option autoImplicit false

/-! # Passes do not mix

A rule takes part in the mapping pass (`RuleKind.maps`), in the admission pass (`RuleKind.admits`)
or in the configuration pass (`RuleKind.configures`), and lets everything through in the others.
Only a limit on tag values takes part in two: in the admission pass it counts, and in the
configuration pass it looks at the count.

So each pass depends on the rules that take part in it, in their order, and not on where the others
stand between them. The ids that reach a rule in the admission pass (`Rule.reached`) are a matter of
the admission rules before it alone (`Rule.filter_reached`), and with them go the records of all
limiters (`Rule.map_recordAt_places`). Chains of rules that agree in each pass
(`Rule.SamePasses`) have the same registrations and records. -/

namespace MeterGate

namespace RuleKind

/-- The kinds that map ids. -/
def maps : RuleKind → Bool
  | .commonTags | .renameTag | .ignoreTags | .replaceTagValues => true
  | _ => false

/-- The kinds that decide on admission. -/
def admits : RuleKind → Bool
  | .accept | .deny | .acceptNameStartsWith | .denyNameStartsWith | .denyUnlessNameStartsWith
  | .maximumAllowableMetrics | .maximumAllowableTags => true
  | _ => false

/-- The kinds that adjust histogram settings. -/
def configures : RuleKind → Bool
  | .maximumAllowableTags | .maxExpected | .minExpected => true
  | _ => false

end RuleKind

namespace Rule

/-! ## The mapping pass -/

theorem mapId_of_not_maps {rule : Rule} (h : rule.kind.maps = false) (id : MeterId) :
    rule.mapId id = id := by
  cases rule with
  | commonTags | renameTag | ignoreTags | replaceTagValues => cases h
  | _ => rfl

theorem mapAll_filter (rules : List Rule) (id : MeterId) :
    mapAll (rules.filter (·.kind.maps)) id = mapAll rules id := by
  induction rules generalizing id with
  | nil => rfl
  | cons rule rest ih =>
      cases h : rule.kind.maps with
      | true =>
          simp only [List.filter_cons, h, if_true]
          exact ih (rule.mapId id)
      | false =>
          simp only [List.filter_cons, h, Bool.false_eq_true, if_false]
          show mapAll (rest.filter (·.kind.maps)) id = mapAll rest (rule.mapId id)
          rw [ih, mapId_of_not_maps h]

/-! ## The admission pass -/

/-- The rules of a list, each with those of some ids that reach it. -/
def reached : List Rule → List MeterId → List (Rule × List MeterId)
  | [], _ => []
  | rule :: rest, ids => (rule, ids) :: reached rest (rule.passed ids)

theorem map_fst_reached (rules : List Rule) (ids : List MeterId) :
    (reached rules ids).map Prod.fst = rules := by
  induction rules generalizing ids with
  | nil => rfl
  | cons rule rest ih => rw [reached, List.map_cons, ih]

theorem answer_of_not_admits {rule : Rule} (h : rule.kind.admits = false) (past : List MeterId)
    (id : MeterId) : rule.answer past id = .neutral := by
  cases rule with
  | accept | deny | acceptNameStartsWith | denyNameStartsWith | denyUnlessNameStartsWith
  | maximumAllowableMetrics | maximumAllowableTags => cases h
  | _ => rfl

theorem passed_of_not_admits {rule : Rule} (h : rule.kind.admits = false) (ids : List MeterId) :
    rule.passed ids = ids := by
  induction ids using List.reverseRecOn with
  | nil => rfl
  | append_singleton ids id ih => rw [passed_concat, ih, answer_of_not_admits h, if_pos rfl]

theorem filter_reached (rules : List Rule) (ids : List MeterId) :
    (reached rules ids).filter (·.1.kind.admits) = reached (rules.filter (·.kind.admits)) ids := by
  induction rules generalizing ids with
  | nil => rfl
  | cons rule rest ih =>
      cases h : rule.kind.admits with
      | true => simp only [reached, List.filter_cons, h, if_true, ih]
      | false =>
          -- the rule is left out, and the next one is reached by all that reached it
          simp only [reached, List.filter_cons, h, Bool.false_eq_true, if_false, ih,
            passed_of_not_admits h]

/-- The verdict of the admission pass is that of the admission rules. -/
theorem firstDecisive_answers_filter (rules : List Rule) (past : List MeterId) (id : MeterId) :
    Reply.firstDecisive (answers (rules.filter (·.kind.admits)) past id)
      = Reply.firstDecisive (answers rules past id) := by
  induction rules generalizing past with
  | nil => rfl
  | cons rule rest ih =>
      cases h : rule.kind.admits with
      | true =>
          simp only [List.filter_cons, h, if_true, answers]
          cases rule.answer past id with
          | accept | deny => rfl
          | neutral => exact ih (rule.passed past)
      | false =>
          simp only [List.filter_cons, h, Bool.false_eq_true, if_false, answers,
            answer_of_not_admits h, passed_of_not_admits h]
          exact ih past

/-! ## The configuration pass -/

/-- What the rules bring into force that take part in the configuration pass, rule by rule. -/
def brought (rules : List Rule) (ids : List MeterId) : List (List Rule) :=
  ((reached rules ids).filter (·.1.kind.configures)).map fun entry => entry.1.inForce entry.2

theorem layAllOver_inForce_of_not_configures {rule : Rule} (h : rule.kind.configures = false)
    (ids : List MeterId) (id : MeterId) (c : DistributionConfig) :
    layAllOver (rule.inForce ids) id c = c := by
  cases rule with
  | maximumAllowableTags | maxExpected | minExpected => cases h
  | _ => rfl

/-- The configuration pass is that of the rules that take part in it. -/
theorem layAllOver_brought (rules : List Rule) (ids : List MeterId) (id : MeterId)
    (c : DistributionConfig) :
    layAllOver (brought rules ids).flatten id c = layAllOver (inForceAll rules ids) id c := by
  induction rules generalizing ids c with
  | nil => rfl
  | cons rule rest ih =>
      have later := ih (rule.passed ids)
      unfold brought at later ⊢
      rw [inForceAll, layAllOver_append]
      cases h : rule.kind.configures with
      | true =>
          simp only [reached, List.filter_cons, h, if_true, List.map_cons, List.flatten_cons,
            layAllOver_append, later]
      | false =>
          simp only [reached, List.filter_cons, h, Bool.false_eq_true, if_false, later,
            layAllOver_inForce_of_not_configures h]

/-- What a rule brings into force depends on the ids that reached it only if it counts them. -/
theorem inForce_of_not_admits {rule : Rule} (h : rule.kind.admits = false)
    (ids others : List MeterId) : rule.inForce ids = rule.inForce others := by
  cases rule with
  | maximumAllowableTags => cases h
  | _ => rfl

/-- Two lists of pairs with the same first entries, and with the same pairs where these are marked,
    are mapped alike by what does not look at the second entries of others. -/
theorem map_eq_of_marked {α β γ : Type} (marked : α → Bool) {g : α × β → γ}
    (unmarked : ∀ a b b', marked a = false → g (a, b) = g (a, b')) {xs ys : List (α × β)}
    (heads : xs.map Prod.fst = ys.map Prod.fst)
    (same : xs.filter (marked ·.1) = ys.filter (marked ·.1)) : xs.map g = ys.map g := by
  -- the lists go down together, since they have as many first entries
  induction xs generalizing ys with
  | nil =>
      rw [List.map_nil, eq_comm, List.map_eq_nil_iff] at heads
      rw [heads]
  | cons x xs ih =>
      cases ys with
      | nil => cases heads
      | cons y ys =>
          obtain ⟨a, b⟩ := x
          obtain ⟨a', b'⟩ := y
          obtain ⟨rfl, rest⟩ := List.cons.inj heads
          cases h : marked a with
          | true =>
              simp only [List.filter_cons, h, if_true] at same
              obtain ⟨head, same⟩ := List.cons.inj same
              rw [List.map_cons, List.map_cons, head, ih rest same]
          | false =>
              simp only [List.filter_cons, h, Bool.false_eq_true, if_false] at same
              rw [List.map_cons, List.map_cons, unmarked a b b' h, ih rest same]

/-! ## Records -/

/-- The record of a rule's limiter after ids reached the rule, if the rule is a limiter. -/
def record? : Rule → List MeterId → Option (MetricCap.Record ⊕ TagCap.Record)
  | .maximumAllowableMetrics max, ids =>
      some (.inl (.ofSeries max.toNat (ids.map MeterId.series)))
  | .maximumAllowableTags name key max _, ids =>
      some (.inr (.ofValues max.toNat
        (ids.filterMap (TagCap.Limit.mk name key max.toNat).valueOf?)))
  | _, _ => none

theorem record?_of_not_admits {rule : Rule} (h : rule.kind.admits = false) (ids : List MeterId) :
    rule.record? ids = none := by
  cases rule with
  | maximumAllowableMetrics | maximumAllowableTags => cases h
  | _ => rfl

theorem places_build_plain {rule : Rule} (plain : rule.kind.isLimiter = false) (s : Store) :
    (rule.build s).1.places = [] := by
  cases rule with
  | maximumAllowableMetrics | maximumAllowableTags => cases plain
  | maxExpected b => exact places_maxFilter b
  | minExpected b => exact places_minFilter b
  | _ => rfl

theorem map_recordAt_build {rule : Rule} (flat : rule.Flat) {s₀ s : Store} {ids : List MeterId}
    (tracks : rule.Tracks s₀ ids s) :
    (rule.build s₀).1.places.map (Store.recordAt · s) = (rule.record? ids).toList := by
  cases limiter : rule.kind.isLimiter with
  | false =>
      have none_held : rule.record? ids = none := by
        cases rule with
        | maximumAllowableMetrics | maximumAllowableTags => cases limiter
        | _ => rfl
      rw [places_build_plain limiter, none_held]
      rfl
  | true =>
      cases rule with
      | maximumAllowableMetrics max => exact congrArg (fun r => [r]) tracks
      | maximumAllowableTags name key max overflow =>
          show Store.recordAt _ s :: (overflow.build s₀).1.places.map _ = _
          rw [places_build_plain flat, tracks]
          rfl
      | _ => cases limiter

/-- The limiters of a list of rules have the records of the ids that reached them. -/
theorem map_recordAt_places {rules : List Rule} (flat : ∀ rule ∈ rules, rule.Flat) {s₀ s : Store}
    {ids : List MeterId} (tracks : TracksAll s₀ rules ids s) :
    (StockFilter.placesOfAll (buildAll rules s₀).1).map (Store.recordAt · s)
      = (reached rules ids).filterMap fun entry => entry.1.record? entry.2 := by
  induction rules generalizing s₀ ids with
  | nil => rfl
  | cons rule rest ih =>
      obtain ⟨here, there⟩ := tracks
      obtain ⟨flatRule, flatRest⟩ := List.forall_mem_cons.1 flat
      rw [buildAll, StockFilter.placesOfAll, List.map_append, map_recordAt_build flatRule here,
        ih flatRest there, reached, List.filterMap_cons]
      cases rule.record? ids <;> rfl

theorem filterMap_record?_filter (rules : List Rule) (ids : List MeterId) :
    ((reached rules ids).filter (·.1.kind.admits)).filterMap (fun entry => entry.1.record? entry.2)
      = (reached rules ids).filterMap fun entry => entry.1.record? entry.2 := by
  rw [List.filterMap_filter]
  refine List.filterMap_congr fun entry _ => ?_
  cases h : entry.1.kind.admits with
  | true => rfl
  | false => exact (record?_of_not_admits h entry.2).symm

/-! ## Runs -/

/-- What becomes of meters that are registered one after another. -/
def outcomes (rules : List Rule) (calls : List (MeterId × DistributionConfig)) :
    List Registration :=
  calls.mapIdx fun n call =>
    outcome rules ((mappedIds rules calls).take n) (mapAll rules call.1) call.2

section

variable {rules : List Rule} (flat : ∀ rule ∈ rules, rule.Flat) {s₀ : Store} {w : World Store}
  (fresh : w.state = (buildAll rules s₀).2) (calls : List (MeterId × DistributionConfig))
include flat fresh

theorem map_fst_course_chain :
    ((chain rules s₀).course (calls.map toRequest) w).map Prod.fst
      = (outcomes rules calls).map .registration := by
  refine List.ext_getElem? fun n => ?_
  rw [List.getElem?_map, course_chain flat s₀ fresh, List.getElem?_map, outcomes,
    List.getElem?_mapIdx, Option.map_map, mappedIds, mappedIds, List.map_take]
  rfl

theorem map_recordAt_after (n : Nat) :
    (StockFilter.placesOfAll (buildAll rules s₀).1).map
        (Store.recordAt · ((chain rules s₀).after ((calls.map toRequest).take n) w).state)
      = (reached rules ((mappedIds rules calls).take n)).filterMap
        fun entry => entry.1.record? entry.2 := by
  have tracks := tracksAll_after flat s₀ fresh (calls.take n)
  rw [mappedIds, List.map_take, List.map_take] at tracks
  exact map_recordAt_places flat tracks

end

/-! ## Lists of rules that agree in each pass -/

/-- Two lists of rules have the same rules in each pass, in the same order, and may differ in how
    these are interleaved. -/
structure SamePasses (rules₁ rules₂ : List Rule) : Prop where
  maps : rules₁.filter (·.kind.maps) = rules₂.filter (·.kind.maps)
  admits : rules₁.filter (·.kind.admits) = rules₂.filter (·.kind.admits)
  configures : rules₁.filter (·.kind.configures) = rules₂.filter (·.kind.configures)

namespace SamePasses

variable {rules₁ rules₂ : List Rule} (same : SamePasses rules₁ rules₂)
include same

theorem mapAll_eq (id : MeterId) : mapAll rules₁ id = mapAll rules₂ id := by
  rw [← mapAll_filter rules₁, same.maps, mapAll_filter]

theorem mappedIds_eq (calls : List (MeterId × DistributionConfig)) :
    mappedIds rules₁ calls = mappedIds rules₂ calls :=
  List.map_congr_left fun call _ => same.mapAll_eq call.1

theorem filter_reached_eq (ids : List MeterId) :
    (reached rules₁ ids).filter (·.1.kind.admits)
      = (reached rules₂ ids).filter (·.1.kind.admits) := by
  rw [filter_reached, same.admits, filter_reached]

/-- A limit on tag values counts the same ids in both lists, wherever it stands, and the other rules
    of the configuration pass count none. -/
theorem brought_eq (ids : List MeterId) : brought rules₁ ids = brought rules₂ ids := by
  -- of the rules in this pass, those that count are the limits on tag values
  refine map_eq_of_marked (fun rule => rule.kind.admits)
    (fun rule ids others h => inForce_of_not_admits h ids others) ?_ ?_
  · have heads : ∀ rules, ((reached rules ids).filter (·.1.kind.configures)).map Prod.fst
        = rules.filter (·.kind.configures) := by
      intro rules
      rw [← map_fst_reached rules ids, List.filter_map, map_fst_reached]
      rfl
    rw [heads, heads, same.configures]
  · rw [List.filter_comm, same.filter_reached_eq, List.filter_comm]

theorem outcome_eq (past : List MeterId) (id : MeterId) (initial : DistributionConfig) :
    outcome rules₁ past id initial = outcome rules₂ past id initial := by
  have verdict : Reply.firstDecisive (answers rules₁ past id)
      = Reply.firstDecisive (answers rules₂ past id) := by
    rw [← firstDecisive_answers_filter rules₁, same.admits, firstDecisive_answers_filter]
  have settings : layAllOver (inForceAll rules₁ (past ++ [id])) id initial
      = layAllOver (inForceAll rules₂ (past ++ [id])) id initial := by
    rw [← layAllOver_brought rules₁, same.brought_eq, layAllOver_brought]
  unfold outcome
  rw [verdict, settings]

/-- Corresponding limiters have the same records, once the same ids were mapped. -/
theorem records_eq (ids : List MeterId) :
    (reached rules₁ ids).filterMap (fun entry => entry.1.record? entry.2)
      = (reached rules₂ ids).filterMap fun entry => entry.1.record? entry.2 := by
  rw [← filterMap_record?_filter rules₁, same.filter_reached_eq, filterMap_record?_filter]

theorem outcomes_eq (calls : List (MeterId × DistributionConfig)) :
    outcomes rules₁ calls = outcomes rules₂ calls := by
  unfold outcomes
  rw [same.mappedIds_eq]
  refine congrArg (List.mapIdx · calls) (funext fun n => funext fun call => ?_)
  rw [same.mapAll_eq, same.outcome_eq]

end SamePasses

end Rule

namespace ChainConfig

/-- **Passes do not mix.** Two good configs have the same mapping rules, the same admission rules
    and the same rules of the configuration pass, each in the same order, and differ in how these
    are interleaved. They build chains, wherever each is built, with the same registrations for
    whatever meters are registered with them; and after any number of these the limiters of the one
    chain have, in order, the same records as the limiters of the other. -/
theorem registrations_of_samePasses (c₁ c₂ : ChainConfig) (valid₁ : c₁.validate = .ok ())
    (valid₂ : c₂.validate = .ok ()) (same : Rule.SamePasses c₁.rules c₂.rules)
    (w₁ w₂ : World Store) (calls : List (MeterId × DistributionConfig)) :
    ∃ filters₁ built₁ filters₂ built₂,
      c₁.build w₁ = .ok filters₁ built₁ ∧ c₂.build w₂ = .ok filters₂ built₂ ∧
      let chain₁ := Chain.toFilter (StockFilter.toChain filters₁)
      let chain₂ := Chain.toFilter (StockFilter.toChain filters₂)
      let requests := calls.map Rule.toRequest
      (∃ registrations : List Registration,
        (chain₁.course requests built₁).map Prod.fst = registrations.map .registration ∧
        (chain₂.course requests built₂).map Prod.fst = registrations.map .registration) ∧
      ∀ n,
        (StockFilter.placesOfAll filters₁).map
            (Store.recordAt · (chain₁.after (requests.take n) built₁).state)
          = (StockFilter.placesOfAll filters₂).map
            (Store.recordAt · (chain₂.after (requests.take n) built₂).state) := by
  refine ⟨_, _, _, _, build_of_valid valid₁ w₁, build_of_valid valid₂ w₂, ?_⟩
  intro chain₁ chain₂ requests
  have flat₁ := flat_of_valid valid₁
  have flat₂ := flat_of_valid valid₂
  refine ⟨⟨Rule.outcomes c₁.rules calls, Rule.map_fst_course_chain flat₁ rfl calls, ?_⟩, ?_⟩
  · rw [same.outcomes_eq]
    exact Rule.map_fst_course_chain flat₂ rfl calls
  · intro n
    calc _ = (Rule.reached c₁.rules ((Rule.mappedIds c₁.rules calls).take n)).filterMap
            (fun entry => entry.1.record? entry.2) := Rule.map_recordAt_after flat₁ rfl calls n
      _ = (Rule.reached c₂.rules ((Rule.mappedIds c₂.rules calls).take n)).filterMap
            (fun entry => entry.1.record? entry.2) := by rw [same.mappedIds_eq, same.records_eq]
      _ = _ := (Rule.map_recordAt_after flat₂ rfl calls n).symm

/-- A limit on one table, whose overflow brings a bound, stands behind a rename, or before it and
    behind another bound. Both chains count the renamed tag, and bound the second table. -/
theorem registrations_of_samePasses_renamed :
    let rename : Rule := .renameTag "db" "entity" "table"
    let bound : Rule := .maxExpected { start := "db", type := .timer, millis := some 1 }
    let tables : Rule := .maximumAllowableTags "db.calls" "table" 1 bound
    let cap : Rule := .maximumAllowableMetrics 2
    let least : Rule := .minExpected { start := "db", type := .timer, millis := some 1 }
    let c₁ : ChainConfig := { rules := [rename, tables, cap, least] }
    let c₂ : ChainConfig := { rules := [tables, least, cap, rename] }
    let call : String → String → MeterId :=
      fun key value => ⟨"db.calls", .timer, [⟨key, value⟩], none, none⟩
    let requests := [(call "entity" "users", DistributionConfig.none),
      (call "entity" "orders", DistributionConfig.none)].map Rule.toRequest
    c₁.validate = .ok () ∧ c₂.validate = .ok () ∧ Rule.SamePasses c₁.rules c₂.rules ∧
    ∃ filters₁ built₁ filters₂ built₂,
      c₁.build (.fresh {}) = .ok filters₁ built₁ ∧ c₂.build (.fresh {}) = .ok filters₂ built₂ ∧
      let chain₁ := Chain.toFilter (StockFilter.toChain filters₁)
      let chain₂ := Chain.toFilter (StockFilter.toChain filters₂)
      let one := some (ExpectedBound.limit { start := "db", type := .timer, millis := some 1 })
      (chain₁.course requests built₁).map Prod.fst
        = [.registration ⟨call "table" "users", .neutral, some { minimum := one }⟩,
          .registration ⟨call "table" "orders", .neutral,
            some { minimum := one, maximum := one }⟩] ∧
      (chain₂.course requests built₂).map Prod.fst = (chain₁.course requests built₁).map Prod.fst ∧
      (StockFilter.placesOfAll filters₂).map
          (Store.recordAt · (chain₂.after requests built₂).state)
        = (StockFilter.placesOfAll filters₁).map
          (Store.recordAt · (chain₁.after requests built₁).state) := by
  intro rename bound tables cap least c₁ c₂ call requests
  have valid₁ : c₁.validate = .ok () := by decide +kernel
  have valid₂ : c₂.validate = .ok () := by decide +kernel
  have same : Rule.SamePasses c₁.rules c₂.rules := ⟨by decide, by decide, by decide⟩
  obtain ⟨filters₁, built₁, filters₂, built₂, ran₁, ran₂, courses, records⟩ :=
    registrations_of_samePasses c₁ c₂ valid₁ valid₂ same (.fresh {}) (.fresh {})
      [(call "entity" "users", .none), (call "entity" "orders", .none)]
  obtain ⟨registrations, course₁, course₂⟩ := courses
  refine ⟨valid₁, valid₂, same, filters₁, built₁, filters₂, built₂, ran₁, ran₂, ?_,
    course₂.trans course₁.symm, (records 2).symm⟩
  cases ran₁.symm.trans (build_of_valid valid₁ (.fresh {}))
  decide +kernel

end ChainConfig

end MeterGate
