import MeterGate.Proofs.GoodConfig
import MeterGate.Proofs.MetricCap
import MeterGate.Proofs.TagCap

set_option autoImplicit false

/-! # Chains as functions of their history

A chain that was built from a good config hides its memory in the records of its limiters. Read from
the outside, it needs none: what each rule answers about an id depends on the rule and on the mapped
ids that reached it before (`Rule.answer`), and what is laid over histogram settings on those that
reached it so far (`Rule.inForce`). An id reaches a rule if every rule before was neutral on it, so
each rule sees the history that the one before lets through (`Rule.passed`).

`Rule.TracksAll` relates a history to the records in the store. A registration preserves it and
answers as the history says (`Rule.register_chain`), and so does a whole run (`Rule.course_chain`).
-/

namespace MeterGate

theorem Chain.accept_cons {σ : Type} {f : Filter σ} {rest : Chain σ} {id : MeterId} {reply : Reply}
    {w w' : World σ} (asked : f.accept id w = .ok reply w') :
    Chain.accept (f :: rest) id w
      = if reply = .neutral then Chain.accept rest id w' else .ok reply w' := by
  simp only [Chain.accept, Eval.bind_apply, asked]
  cases reply with
  | accept | deny => rfl
  | neutral => rfl

theorem Chain.configure_cons {σ : Type} {f : Filter σ} {rest : Chain σ} {id : MeterId}
    {c c' : DistributionConfig} {w w' : World σ} (left : f.configure id c w = .ok c' w') :
    Chain.configure (f :: rest) id c w = Chain.configure rest id c' w' := by
  simp only [Chain.configure, Eval.bind_apply, left]

namespace Rule

/-! ## Answers -/

/-- What a rule answers about an id after others reached it. -/
def answer : Rule → List MeterId → MeterId → Reply
  | .maximumAllowableMetrics max, past, id =>
      if max.toNat < distinctSeries (past ++ [id]) then .deny else .neutral
  | .maximumAllowableTags name key max overflow, past, id =>
      let limit : TagCap.Limit := ⟨name, key, max.toNat⟩
      if (limit.valueOf? id).isSome ∧ max.toNat < (limit.valuesAmong (past ++ [id])).card then
        overflow.plainAnswer id
      else .neutral
  | rule, _, id => rule.plainAnswer id

/-- The ids on which a rule is neutral, when they reach it in order after others. -/
def passedFrom (rule : Rule) (past : List MeterId) : List MeterId → List MeterId
  | [] => []
  | id :: rest =>
      let later := passedFrom rule (past ++ [id]) rest
      if rule.answer past id = .neutral then id :: later else later

/-- The ids that a rule lets through to the rules behind it. -/
def passed (rule : Rule) (ids : List MeterId) : List MeterId := rule.passedFrom [] ids

/-- What the rules of a list answer about an id, each after those that reached it. -/
def answers : List Rule → List MeterId → MeterId → List Reply
  | [], _, _ => []
  | rule :: rest, past, id => rule.answer past id :: answers rest (rule.passed past) id

theorem answer_plain {rule : Rule} (plain : rule.kind.isLimiter = false) (past : List MeterId)
    (id : MeterId) : rule.answer past id = rule.plainAnswer id := by
  cases rule with
  | maximumAllowableMetrics max => cases plain
  | maximumAllowableTags name key max overflow => cases plain
  | _ => rfl

theorem passedFrom_concat (rule : Rule) (past ids : List MeterId) (id : MeterId) :
    rule.passedFrom past (ids ++ [id]) = rule.passedFrom past ids
      ++ if rule.answer (past ++ ids) id = .neutral then [id] else [] := by
  induction ids generalizing past with
  | nil => simp [passedFrom]
  | cons first rest ih =>
      have later := ih (past ++ [first])
      rw [List.append_assoc, List.singleton_append] at later
      simp only [List.cons_append, passedFrom, later]
      split <;> rfl

theorem passed_concat (rule : Rule) (ids : List MeterId) (id : MeterId) :
    rule.passed (ids ++ [id])
      = rule.passed ids ++ if rule.answer ids id = .neutral then [id] else [] :=
  passedFrom_concat rule [] ids id

/-! ## Rules in force -/

/-- The rules that a rule brings to bear on histogram settings after ids reached it: a limit on tag
    values brings the rule that follows it, once there are too many of them. -/
def inForce : Rule → List MeterId → List Rule
  | .maximumAllowableTags name key max overflow, ids =>
      if max.toNat < ((TagCap.Limit.mk name key max.toNat).valuesAmong ids).card then [overflow]
      else []
  | rule, _ => [rule]

/-- The rules that a list of rules brings to bear on histogram settings, in order. -/
def inForceAll : List Rule → List MeterId → List Rule
  | [], _ => []
  | rule :: rest, ids => rule.inForce ids ++ inForceAll rest (rule.passed ids)

theorem inForce_plain {rule : Rule} (plain : rule.kind.isLimiter = false) (ids : List MeterId) :
    rule.inForce ids = [rule] := by
  cases rule with
  | maximumAllowableTags name key max overflow => cases plain
  | _ => rfl

/-- The histogram settings with the bounds of rules laid over them, one after another. -/
def layAllOver (rules : List Rule) (id : MeterId) (c : DistributionConfig) : DistributionConfig :=
  rules.foldl (fun c rule => rule.layOver id c) c

/-! ## Histories and records -/

/-- The record of a rule's limiter, built over a store, is that of the ids that reached the rule. -/
def Tracks (s₀ : Store) : Rule → List MeterId → Store → Prop
  | .maximumAllowableMetrics max, ids, s =>
      Store.recordAt (.metric s₀.metrics.length) s
        = .inl (.ofSeries max.toNat (ids.map MeterId.series))
  | .maximumAllowableTags name key max overflow, ids, s =>
      Store.recordAt (.values (overflow.build s₀).2.values.length) s
        = .inr (.ofValues max.toNat
          (ids.filterMap (TagCap.Limit.mk name key max.toNat).valueOf?))
  | _, _, _ => True

/-- Every limiter of a list of rules has the record of the ids that reached it. -/
def TracksAll : Store → List Rule → List MeterId → Store → Prop
  | _, [], _, _ => True
  | s₀, rule :: rest, ids, s =>
      rule.Tracks s₀ ids s ∧ TracksAll (rule.build s₀).2 rest (rule.passed ids) s

theorem tracks_plain {rule : Rule} (plain : rule.kind.isLimiter = false) (s₀ : Store)
    (ids : List MeterId) (s : Store) : rule.Tracks s₀ ids s := by
  cases rule with
  | maximumAllowableMetrics max => cases plain
  | maximumAllowableTags name key max overflow => cases plain
  | _ => trivial

/-- The record of a limit on tag values says what the ids that reached it brought. -/
theorem reads_of_tracks {name key : String} {max : UInt64} {overflow : Rule} {s₀ s : Store}
    {ids : List MeterId}
    (tracks : (maximumAllowableTags name key max overflow).Tracks s₀ ids s) :
    ((Store.valueCell (overflow.build s₀).2.values.length).get s).Reads max.toNat
      (ids.filterMap (TagCap.Limit.mk name key max.toNat).valueOf?) := by
  rw [show (Store.valueCell _).get s = _ from Sum.inr.inj tracks]
  exact TagCap.Record.reads_ofValues _ _

theorem Tracks.congr {rule : Rule} {s₀ s t : Store} {ids : List MeterId}
    (same : ∀ p ∈ (rule.build s₀).1.places, Store.recordAt p t = Store.recordAt p s)
    (h : rule.Tracks s₀ ids s) : rule.Tracks s₀ ids t := by
  cases rule with
  | maximumAllowableMetrics max => exact (same _ List.mem_cons_self).trans h
  | maximumAllowableTags name key max overflow => exact (same _ List.mem_cons_self).trans h
  | _ => trivial

theorem TracksAll.congr {rules : List Rule} {s₀ s t : Store} {ids : List MeterId}
    (same : ∀ p ∈ StockFilter.placesOfAll (buildAll rules s₀).1,
      Store.recordAt p t = Store.recordAt p s)
    (h : TracksAll s₀ rules ids s) : TracksAll s₀ rules ids t := by
  induction rules generalizing s₀ ids with
  | nil => trivial
  | cons rule rest ih =>
      simp only [buildAll, StockFilter.placesOfAll, List.mem_append] at same
      exact ⟨h.1.congr fun p hp => same p (Or.inl hp), ih (fun p hp => same p (Or.inr hp)) h.2⟩

theorem tracksAll_nil {rules : List Rule} {s₀ s : Store}
    (blank : ∀ p ∈ StockFilter.placesOfAll (buildAll rules s₀).1,
      Store.recordAt p s = Store.blankAt p) : TracksAll s₀ rules [] s := by
  induction rules generalizing s₀ with
  | nil => trivial
  | cons rule rest ih =>
      simp only [buildAll, StockFilter.placesOfAll, List.mem_append] at blank
      refine ⟨?_, ih fun p hp => blank p (Or.inr hp)⟩
      cases rule with
      | maximumAllowableMetrics max => exact blank _ (Or.inl List.mem_cons_self)
      | maximumAllowableTags name key max overflow => exact blank _ (Or.inl List.mem_cons_self)
      | _ => trivial

theorem tracksAll_buildAll (rules : List Rule) (s : Store) :
    TracksAll s rules [] (buildAll rules s).2 := by
  refine tracksAll_nil fun p hp => ?_
  rw [(extends_buildAll rules s).recordAt_eq]
  exact Store.recordAt_of_not_has (places_buildAll rules s p hp)

/-! ## The admission pass -/

theorem accept_build_metrics (max : UInt64) (s₀ : Store) (ids : List MeterId) (id : MeterId)
    {w : World Store} (tracks : (maximumAllowableMetrics max).Tracks s₀ ids w.state) :
    ∃ w', ((maximumAllowableMetrics max).build s₀).1.toFilter.accept id w
        = .ok ((maximumAllowableMetrics max).answer ids id) w'
      ∧ (maximumAllowableMetrics max).Tracks s₀ (ids ++ [id]) w'.state := by
  let cell := Store.metricCell s₀.metrics.length
  have held : cell.get w.state = .ofSeries max.toNat (ids.map MeterId.series) := Sum.inl.inj tracks
  have offered : (cell.get w.state).offer max.toNat id.series
      = .ofSeries max.toNat ((ids ++ [id]).map MeterId.series) := by
    rw [held, List.map_append, List.map_singleton, MetricCap.Record.ofSeries_concat]
  have exceeds : ((cell.get w.state).offer max.toNat id.series).isOver max.toNat = true
      ↔ max.toNat < distinctSeries (ids ++ [id]) := by
    rw [offered]
    exact (MetricCap.Record.reads_ofSeries _ _).isOver_iff
  have answered := MetricCap.accept_apply cell max.toNat id w
  simp only [exceeds] at answered
  rw [offered] at answered
  by_cases h : max.toNat < distinctSeries (ids ++ [id])
  · rw [if_pos h] at answered
    refine ⟨_, answered.trans (by rw [answer, if_pos h]), congrArg Sum.inl ?_⟩
    exact World.get_put cell _ w
  · rw [if_neg h] at answered
    refine ⟨_, answered.trans (by rw [answer, if_neg h]), congrArg Sum.inl ?_⟩
    exact World.get_put cell _ w

theorem accept_build_tags (name key : String) (max : UInt64) {overflow : Rule}
    (flat : overflow.kind.isLimiter = false) (s₀ : Store) (ids : List MeterId) (id : MeterId)
    {w : World Store}
    (tracks : (maximumAllowableTags name key max overflow).Tracks s₀ ids w.state) :
    ∃ w', ((maximumAllowableTags name key max overflow).build s₀).1.toFilter.accept id w
        = .ok ((maximumAllowableTags name key max overflow).answer ids id) w'
      ∧ (maximumAllowableTags name key max overflow).Tracks s₀ (ids ++ [id]) w'.state := by
  let cell := Store.valueCell (overflow.build s₀).2.values.length
  let limit : TagCap.Limit := ⟨name, key, max.toNat⟩
  let after := (overflow.build s₀).1.toFilter
  have held : cell.get w.state = .ofValues limit.max (ids.filterMap limit.valueOf?) :=
    Sum.inr.inj tracks
  have reading : (maximumAllowableTags name key max overflow).answer ids id
      = if (limit.valueOf? id).isSome ∧ limit.max < (limit.valuesAmong (ids ++ [id])).card then
          overflow.plainAnswer id
        else .neutral := rfl
  cases value : limit.valueOf? id with
  | none =>
      have answered : TagCap.accept cell limit after id w = _ := TagCap.accept_of_none value w
      rw [reading, if_neg (by simp [value])]
      refine ⟨w, answered, congrArg Sum.inr (held.trans ?_)⟩
      rw [List.filterMap_append, List.filterMap_cons_none value, List.filterMap_nil,
        List.append_nil]
  | some v =>
      have offered : (cell.get w.state).offer limit.max v
          = .ofValues limit.max ((ids ++ [id]).filterMap limit.valueOf?) := by
        rw [held, List.filterMap_append]
        simp [value, TagCap.Record.ofValues_concat]
      have exceeds : ((cell.get w.state).offer limit.max v).isOver limit.max = true
          ↔ limit.max < (limit.valuesAmong (ids ++ [id])).card := by
        rw [offered]
        exact (TagCap.Record.reads_ofValues _ _).isOver_iff
      have answered : TagCap.accept cell limit after id w = _ := TagCap.accept_of_some value w
      simp only [exceeds, after, accept_build_plain flat, Eval.pure_apply] at answered
      rw [offered] at answered
      by_cases h : limit.max < (limit.valuesAmong (ids ++ [id])).card
      · rw [if_pos h] at answered
        rw [reading, if_pos (And.intro (by simp [value]) h)]
        refine ⟨_, answered, congrArg Sum.inr ?_⟩
        -- the first value too many is reported, which leaves the record as it is
        split
        · exact World.get_put cell _ w
        · exact World.get_put cell _ w
      · rw [if_neg h] at answered
        rw [reading, if_neg fun both => h both.2]
        refine ⟨_, answered, congrArg Sum.inr ?_⟩
        exact World.get_put cell _ w

/-- An id reaches a rule: the rule answers as its history says, which has the id from then on. -/
theorem accept_build {rule : Rule} (flat : rule.Flat) (s₀ : Store) (ids : List MeterId)
    (id : MeterId) {w : World Store} (tracks : rule.Tracks s₀ ids w.state) :
    ∃ w', (rule.build s₀).1.toFilter.accept id w = .ok (rule.answer ids id) w'
      ∧ rule.Tracks s₀ (ids ++ [id]) w'.state := by
  cases limiter : rule.kind.isLimiter with
  | false =>
      refine ⟨w, ?_, tracks_plain limiter s₀ _ _⟩
      rw [accept_build_plain limiter, answer_plain limiter]
      rfl
  | true =>
      cases rule with
      | maximumAllowableMetrics max => exact accept_build_metrics max s₀ ids id tracks
      | maximumAllowableTags name key max overflow =>
          exact accept_build_tags name key max flat s₀ ids id tracks
      | _ => cases limiter

/-- An id reaches the first rule of a list, which cannot reach what the rules behind it remember. -/
theorem accept_head {rule : Rule} {rest : List Rule} (flat : rule.Flat) (s₀ : Store)
    (ids : List MeterId) (id : MeterId) {w : World Store}
    (tracks : TracksAll s₀ (rule :: rest) ids w.state) :
    ∃ w', (rule.build s₀).1.toFilter.accept id w = .ok (rule.answer ids id) w'
      ∧ rule.Tracks s₀ (ids ++ [id]) w'.state
      ∧ TracksAll (rule.build s₀).2 rest (rule.passed ids) w'.state := by
  obtain ⟨w', asked, noted⟩ := accept_build flat s₀ ids id tracks.1
  refine ⟨w', asked, noted, tracks.2.congr fun p hp => ?_⟩
  have kept := StockFilter.keeps_toFilter (not_mem_places_of_mem hp)
  exact (kept.accept id).of_ok asked

/-- **The admission pass.** The first opinion among the answers counts, and every limiter that the
    id reached knows of it afterwards. -/
theorem accept_buildAll {rules : List Rule} (flat : ∀ rule ∈ rules, rule.Flat) (s₀ : Store)
    (ids : List MeterId) (id : MeterId) {w : World Store}
    (tracks : TracksAll s₀ rules ids w.state) :
    ∃ w', Chain.accept (StockFilter.toChain (buildAll rules s₀).1) id w
        = .ok (Reply.firstDecisive (answers rules ids id)) w'
      ∧ TracksAll s₀ rules (ids ++ [id]) w'.state := by
  induction rules generalizing s₀ ids w with
  | nil => exact ⟨w, rfl, trivial⟩
  | cons rule rest ih =>
      obtain ⟨here, flatRest⟩ := List.forall_mem_cons.1 flat
      obtain ⟨w₁, asked, noted, there₁⟩ := accept_head here s₀ ids id tracks
      have threaded := passed_concat rule ids id
      simp only [buildAll, StockFilter.toChain, Chain.accept_cons asked, TracksAll, answers]
      cases decision : rule.answer ids id with
      | accept | deny =>
          rw [threaded, decision, if_neg (by decide), if_neg (by decide), List.append_nil]
          exact ⟨w₁, rfl, noted, there₁⟩
      | neutral =>
          obtain ⟨w₂, answered, later⟩ := ih flatRest _ _ there₁
          rw [if_pos rfl]
          refine ⟨w₂, answered, ?_, ?_⟩
          · refine noted.congr fun p hp => ?_
            have apart : p ∉ StockFilter.placesOfAll (buildAll rest (rule.build s₀).2).1 :=
              fun other => not_mem_places_of_mem other hp
            have kept := StockFilter.keeps_toChain apart
            exact (kept.accept id).of_ok answered
          · rw [threaded, decision, if_pos rfl]
            exact later

/-! ## The configuration pass -/

theorem layAllOver_append (xs ys : List Rule) (id : MeterId) (c : DistributionConfig) :
    layAllOver (xs ++ ys) id c = layAllOver ys id (layAllOver xs id c) := List.foldl_append

/-- A rule lays over histogram settings what its history brings into force, and forgets nothing. -/
theorem configure_build {rule : Rule} (flat : rule.Flat) (s₀ : Store) (ids : List MeterId)
    (id : MeterId) (c : DistributionConfig) {w : World Store}
    (tracks : rule.Tracks s₀ ids w.state) :
    (rule.build s₀).1.toFilter.configure id c w
      = .ok (layAllOver (rule.inForce ids) id c) w := by
  cases limiter : rule.kind.isLimiter with
  | false =>
      rw [configure_build_plain limiter, inForce_plain limiter]
      rfl
  | true =>
      cases rule with
      | maximumAllowableMetrics max => rfl
      | maximumAllowableTags name key max overflow =>
          have reads := reads_of_tracks tracks
          refine (TagCap.configure_apply id c w).trans ?_
          by_cases exceeded : max.toNat
              < ((TagCap.Limit.mk name key max.toNat).valuesAmong ids).card
          · rw [inForce, if_pos exceeded, configure_build_plain flat]
            exact if_pos (reads.isOver_iff.2 exceeded)
          · rw [inForce, if_neg exceeded]
            exact if_neg fun isOver => exceeded (reads.isOver_iff.1 isOver)
      | _ => cases limiter

/-- **The configuration pass.** The bounds in force are laid over the settings in order. -/
theorem configure_buildAll {rules : List Rule} (flat : ∀ rule ∈ rules, rule.Flat) (s₀ : Store)
    (ids : List MeterId) (id : MeterId) (c : DistributionConfig) {w : World Store}
    (tracks : TracksAll s₀ rules ids w.state) :
    Chain.configure (StockFilter.toChain (buildAll rules s₀).1) id c w
      = .ok (layAllOver (inForceAll rules ids) id c) w := by
  induction rules generalizing s₀ ids c with
  | nil => rfl
  | cons rule rest ih =>
      obtain ⟨here, flatRest⟩ := List.forall_mem_cons.1 flat
      have left := configure_build here s₀ ids id c tracks.1
      rw [inForceAll, layAllOver_append]
      exact (Chain.configure_cons left).trans (ih flatRest _ _ _ tracks.2)

/-! ## Registrations -/

/-- What becomes of a meter whose mapped id is given, after others were registered. -/
def outcome (rules : List Rule) (past : List MeterId) (id : MeterId)
    (initial : DistributionConfig) : Registration where
  id := id
  reply := Reply.firstDecisive (answers rules past id)
  config :=
    if id.type.usesDistributionConfig then
      some (layAllOver (inForceAll rules (past ++ [id])) id initial)
    else none

/-- The chain of a list of rules that is built over a store. -/
def chain (rules : List Rule) (s₀ : Store) : Filter Store :=
  Chain.toFilter (StockFilter.toChain (buildAll rules s₀).1)

/-- After the admission pass a registration only reports its verdict. -/
theorem register_of_accept {rules : List Rule} (flat : ∀ rule ∈ rules, rule.Flat) {s₀ : Store}
    {ids : List MeterId} {id : MeterId} (initial : DistributionConfig) {w w' : World Store}
    (answered : Chain.accept (StockFilter.toChain (buildAll rules s₀).1) (mapAll rules id) w
      = .ok (Reply.firstDecisive (answers rules ids (mapAll rules id))) w')
    (noted : TracksAll s₀ rules (ids ++ [mapAll rules id]) w'.state) :
    (chain rules s₀).register id initial w = .ok (outcome rules ids (mapAll rules id) initial)
      (w'.log (.ofVerdict (mapAll rules id)
        (outcome rules ids (mapAll rules id) initial).reply)) := by
  have mapped : (chain rules s₀).map id w = .ok (mapAll rules id) w :=
    congrFun (map_buildAll rules s₀ id) w
  have settings : (chain rules s₀).configure (mapAll rules id) initial w' = _ :=
    configure_buildAll flat s₀ _ (mapAll rules id) initial noted
  have configured : (chain rules s₀).configureIfUsed (mapAll rules id) initial w'
      = .ok (outcome rules ids (mapAll rules id) initial).config w' := by
    unfold Filter.configureIfUsed outcome
    split
    · simp only [map_eq_pure_bind, Eval.bind_apply, settings, Eval.pure_apply]
    · rfl
  exact Filter.register_of_ok mapped answered configured

/-- **One registration.** Its outcome is that of the history of mapped ids, which has its own mapped
    id from then on. -/
theorem register_chain {rules : List Rule} (flat : ∀ rule ∈ rules, rule.Flat) (s₀ : Store)
    (ids : List MeterId) (id : MeterId) (initial : DistributionConfig) {w : World Store}
    (tracks : TracksAll s₀ rules ids w.state) :
    ∃ w', (chain rules s₀).register id initial w
        = .ok (outcome rules ids (mapAll rules id) initial) w'
      ∧ TracksAll s₀ rules (ids ++ [mapAll rules id]) w'.state := by
  obtain ⟨w', answered, noted⟩ := accept_buildAll flat s₀ ids (mapAll rules id) tracks
  exact ⟨_, register_of_accept flat initial answered noted, noted⟩

theorem respond_chain {rules : List Rule} (flat : ∀ rule ∈ rules, rule.Flat) (s₀ : Store)
    (ids : List MeterId) (id : MeterId) (initial : DistributionConfig) {w : World Store}
    (tracks : TracksAll s₀ rules ids w.state) :
    ∃ w', (chain rules s₀).respond (.register id initial) w
        = (.registration (outcome rules ids (mapAll rules id) initial), w')
      ∧ TracksAll s₀ rules (ids ++ [mapAll rules id]) w'.state := by
  obtain ⟨w', ran, noted⟩ := register_chain flat s₀ ids id initial tracks
  refine ⟨w', ?_, noted⟩
  rw [Filter.respond_register, ran]

/-- The request to register a meter. -/
def toRequest (call : MeterId × DistributionConfig) : Request := .register call.1 call.2

/-- The mapped ids of meters that are registered. -/
def mappedIds (rules : List Rule) (calls : List (MeterId × DistributionConfig)) : List MeterId :=
  calls.map fun call => mapAll rules call.1

theorem tracksAll_after {rules : List Rule} (flat : ∀ rule ∈ rules, rule.Flat) (s₀ : Store)
    {w : World Store} (fresh : w.state = (buildAll rules s₀).2)
    (calls : List (MeterId × DistributionConfig)) :
    TracksAll s₀ rules (mappedIds rules calls)
      ((chain rules s₀).after (calls.map toRequest) w).state := by
  induction calls using List.reverseRecOn with
  | nil =>
      show TracksAll s₀ rules [] w.state
      rw [fresh]
      exact tracksAll_buildAll rules s₀
  | append_singleton calls call ih =>
      obtain ⟨w', answered, noted⟩ := respond_chain flat s₀ _ call.1 call.2 ih
      rw [List.map_append, List.map_singleton, Filter.after_concat, toRequest, answered,
        mappedIds, List.map_append]
      exact noted

/-- **A run of registrations.** Each has the outcome of its history. -/
theorem course_chain {rules : List Rule} (flat : ∀ rule ∈ rules, rule.Flat) (s₀ : Store)
    {w : World Store} (fresh : w.state = (buildAll rules s₀).2)
    (calls : List (MeterId × DistributionConfig)) (n : Nat) :
    ((chain rules s₀).course (calls.map toRequest) w)[n]?.map Prod.fst
      = calls[n]?.map fun call => .registration
        (outcome rules (mappedIds rules (calls.take n)) (mapAll rules call.1) call.2) := by
  rw [Filter.getElem?_course, List.getElem?_map, Option.map_map, Option.map_map, ← List.map_take]
  congr 1
  funext call
  obtain ⟨w', answered, -⟩ :=
    respond_chain flat s₀ _ call.1 call.2 (tracksAll_after flat s₀ fresh (calls.take n))
  exact congrArg Prod.fst answered

end Rule

namespace ChainConfig

theorem build_of_valid {c : ChainConfig} (valid : c.validate = .ok ()) (w : World Store) :
    c.build w = .ok (Rule.buildAll c.rules w.state).1
      (World.log (.chainBuilt c.rules.length)
        { w with state := (Rule.buildAll c.rules w.state).2 }) := by
  unfold build
  rw [valid]
  simp only [Rule.length_buildAll]

end ChainConfig

end MeterGate
