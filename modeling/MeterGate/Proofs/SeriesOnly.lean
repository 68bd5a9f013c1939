import MeterGate.Proofs.Passes

set_option autoImplicit false

/-! # Only the series counts

Of an id, the mapping rules and the admission rules look at the name and the tags, which are what
`==` compares. An id with nothing else is `MeterId.bare`. Taking away type, unit and description
commutes with every mapping rule (`Rule.mapId_bare`) and changes no answer (`Rule.answer_bare`), so
it changes no history either: the ids that reach a rule (`Rule.reached_bare`), the verdicts
(`Rule.answers_bare`) and the records (`Rule.records_bare`) of a run are those of the run on bare
ids. Runs on ids of the same series are therefore alike
(`ChainConfig.registrations_of_sameSeries`). -/

namespace MeterGate

namespace MeterId

/-- The id that has the series of a given one and no type, unit or description of its own. -/
def bare (id : MeterId) : MeterId := { name := id.name, type := .other, tags := id.tags }

@[simp] theorem series_bare (id : MeterId) : id.bare.series = id.series := rfl

theorem bare_eq_bare_iff {a b : MeterId} : a.bare = b.bare ↔ (a == b) = true := by
  rw [beq_iff]
  simp [bare, series]

theorem renameTag_eq_withTags (start a b : String) (id : MeterId) :
    id.renameTag start a b = id.withTags (id.renameTag start a b).tags := by
  unfold renameTag
  split <;> rfl

theorem renameTag_bare (start a b : String) (id : MeterId) :
    id.bare.renameTag start a b = (id.renameTag start a b).bare := by
  have named : id.bare.nameStartsWith start = id.nameStartsWith start := rfl
  unfold renameTag
  rw [named]
  split <;> rfl

end MeterId

theorem map_series_bare (ids : List MeterId) :
    (ids.map MeterId.bare).map MeterId.series = ids.map MeterId.series := by
  simp only [List.map_map, Function.comp_def, MeterId.series_bare]

/-- The values that a tag cap counts are a matter of the series. -/
theorem TagCap.Limit.filterMap_valueOf?_bare (limit : TagCap.Limit) (ids : List MeterId) :
    (ids.map MeterId.bare).filterMap limit.valueOf? = ids.filterMap limit.valueOf? := by
  rw [List.filterMap_map]
  rfl

namespace Rule

/-! ## The mapping pass -/

theorem mapId_eq_withTags (rule : Rule) (id : MeterId) :
    rule.mapId id = id.withTags (rule.mapId id).tags := by
  cases rule with
  | renameTag start fromKey toKey => exact id.renameTag_eq_withTags start fromKey toKey
  | _ => rfl

theorem mapAll_eq_withTags (rules : List Rule) (id : MeterId) :
    mapAll rules id = id.withTags (mapAll rules id).tags := by
  induction rules generalizing id with
  | nil => rfl
  | cons rule rest ih =>
      show mapAll rest (rule.mapId id) = id.withTags (mapAll rest (rule.mapId id)).tags
      calc mapAll rest (rule.mapId id)
          = (rule.mapId id).withTags (mapAll rest (rule.mapId id)).tags := ih (rule.mapId id)
        _ = (id.withTags (rule.mapId id).tags).withTags (mapAll rest (rule.mapId id)).tags := by
            rw [← mapId_eq_withTags]
        _ = id.withTags (mapAll rest (rule.mapId id)).tags := rfl

theorem mapId_bare (rule : Rule) (id : MeterId) : rule.mapId id.bare = (rule.mapId id).bare := by
  cases rule with
  | renameTag start fromKey toKey => exact id.renameTag_bare start fromKey toKey
  | _ => rfl

theorem mapAll_bare (rules : List Rule) (id : MeterId) :
    mapAll rules id.bare = (mapAll rules id).bare := by
  induction rules generalizing id with
  | nil => rfl
  | cons rule rest ih =>
      show mapAll rest (rule.mapId id.bare) = (mapAll rest (rule.mapId id)).bare
      rw [mapId_bare, ih]

/-! ## The admission pass -/

theorem plainAnswer_bare (rule : Rule) (id : MeterId) :
    rule.plainAnswer id.bare = rule.plainAnswer id := by
  cases rule <;> rfl

/-- A rule answers about a bare id, after bare ids, as it does about the ids themselves. -/
theorem answer_bare (rule : Rule) (past : List MeterId) (id : MeterId) :
    rule.answer (past.map MeterId.bare) id.bare = rule.answer past id := by
  have grown : past.map MeterId.bare ++ [id.bare] = (past ++ [id]).map MeterId.bare := by
    rw [List.map_append, List.map_singleton]
  cases rule with
  | maximumAllowableMetrics max =>
      rw [answer, answer, distinctSeries, distinctSeries, grown, map_series_bare]
  | maximumAllowableTags name key max overflow =>
      have valued (limit : TagCap.Limit) : limit.valueOf? id.bare = limit.valueOf? id := rfl
      rw [answer, answer, grown, valued, plainAnswer_bare, TagCap.Limit.valuesAmong,
        TagCap.Limit.filterMap_valueOf?_bare, ← TagCap.Limit.valuesAmong]
  | _ => rfl

theorem passed_bare (rule : Rule) (ids : List MeterId) :
    rule.passed (ids.map MeterId.bare) = (rule.passed ids).map MeterId.bare := by
  induction ids using List.reverseRecOn with
  | nil => rfl
  | append_singleton ids id ih =>
      rw [List.map_append, List.map_singleton, passed_concat, passed_concat, ih, answer_bare,
        List.map_append]
      split <;> rfl

theorem answers_bare (rules : List Rule) (past : List MeterId) (id : MeterId) :
    answers rules (past.map MeterId.bare) id.bare = answers rules past id := by
  induction rules generalizing past with
  | nil => rfl
  | cons rule rest ih => rw [answers, answers, answer_bare, passed_bare, ih]

theorem reached_bare (rules : List Rule) (ids : List MeterId) :
    reached rules (ids.map MeterId.bare)
      = (reached rules ids).map fun entry => (entry.1, entry.2.map MeterId.bare) := by
  induction rules generalizing ids with
  | nil => rfl
  | cons rule rest ih => rw [reached, reached, List.map_cons, passed_bare, ih]

/-! ## Records -/

theorem record?_bare (rule : Rule) (ids : List MeterId) :
    rule.record? (ids.map MeterId.bare) = rule.record? ids := by
  cases rule with
  | maximumAllowableMetrics max => rw [record?, map_series_bare, record?]
  | maximumAllowableTags name key max overflow =>
      rw [record?, TagCap.Limit.filterMap_valueOf?_bare, record?]
  | _ => rfl

theorem records_bare (rules : List Rule) (ids : List MeterId) :
    (reached rules (ids.map MeterId.bare)).filterMap (fun entry => entry.1.record? entry.2)
      = (reached rules ids).filterMap fun entry => entry.1.record? entry.2 := by
  rw [reached_bare, List.filterMap_map]
  exact List.filterMap_congr fun entry _ => record?_bare entry.1 entry.2

/-! ## Runs on ids of the same series -/

section

variable {calls₁ calls₂ : List (MeterId × DistributionConfig)}
  (same : List.Forall₂ (fun call₁ call₂ => (call₁.1 == call₂.1) = true) calls₁ calls₂)
include same

/-- The mapped ids of the two runs are the same ones, once they are bare. -/
theorem map_bare_mappedIds_of_sameSeries (rules : List Rule) :
    (mappedIds rules calls₁).map MeterId.bare = (mappedIds rules calls₂).map MeterId.bare := by
  induction same with
  | nil => rfl
  | @cons call₁ call₂ rest₁ rest₂ here _ ih =>
      have mapped : (mapAll rules call₁.1).bare = (mapAll rules call₂.1).bare := by
        rw [← mapAll_bare, MeterId.bare_eq_bare_iff.2 here, mapAll_bare]
      rw [mappedIds, mappedIds, List.map_cons, List.map_cons, List.map_cons, List.map_cons, mapped]
      exact congrArg (_ :: ·) ih

theorem records_of_sameSeries (rules : List Rule) (n : Nat) :
    (reached rules ((mappedIds rules calls₁).take n)).filterMap
        (fun entry => entry.1.record? entry.2)
      = (reached rules ((mappedIds rules calls₂).take n)).filterMap
        fun entry => entry.1.record? entry.2 := by
  rw [← records_bare, List.map_take, map_bare_mappedIds_of_sameSeries same, ← List.map_take,
    records_bare]

/-- Call by call the replies are the same, and the mapped ids are of the same series. -/
theorem outcomes_of_sameSeries (rules : List Rule) :
    List.Forall₂ (fun r₁ r₂ : Registration => r₁.reply = r₂.reply ∧ (r₁.id == r₂.id) = true)
      (outcomes rules calls₁) (outcomes rules calls₂) := by
  have mapped := map_bare_mappedIds_of_sameSeries same rules
  rw [List.forall₂_iff_get]
  refine ⟨by simp [outcomes, same.length_eq], fun n h₁ h₂ => ?_⟩
  have h₁' : n < calls₁.length := by simpa [outcomes] using h₁
  have h₂' : n < calls₂.length := by simpa [outcomes] using h₂
  have ids : (mapAll rules calls₁[n].1).bare = (mapAll rules calls₂[n].1).bare := by
    have := congrArg (·[n]?) mapped
    simpa [mappedIds, h₁', h₂'] using this
  simp only [outcomes, List.get_eq_getElem, List.getElem_mapIdx, outcome]
  refine ⟨?_, MeterId.bare_eq_bare_iff.1 ids⟩
  rw [← answers_bare, List.map_take, mapped, ids, ← List.map_take, answers_bare]

end

theorem outcomes_eq_withTags (rules : List Rule) (calls : List (MeterId × DistributionConfig)) :
    List.Forall₂ (fun call (r : Registration) => r.id = call.1.withTags r.id.tags)
      calls (outcomes rules calls) := by
  rw [List.forall₂_iff_get]
  refine ⟨by simp [outcomes], fun n h₁ h₂ => ?_⟩
  simp only [outcomes, List.get_eq_getElem, List.getElem_mapIdx, outcome]
  exact mapAll_eq_withTags rules _

end Rule

namespace ChainConfig

/-- **Admission never looks at type, unit or description.** Two chains are built from one good
    config, wherever each is built, and meters are registered with each, as many with the one as
    with the other. If the ids of corresponding calls are equal as `==` compares them, whatever
    their types, units and descriptions, then call by call the replies are the same and the mapped
    ids are equal as `==` compares them; after any number of calls the limiters of the one chain
    have, in order, the same records as those of the other; and every mapped id has the name, type,
    unit and description of the id that was asked for. -/
theorem registrations_of_sameSeries (c : ChainConfig) (valid : c.validate = .ok ())
    (w₁ w₂ : World Store) (calls₁ calls₂ : List (MeterId × DistributionConfig))
    (same : List.Forall₂ (fun call₁ call₂ => (call₁.1 == call₂.1) = true) calls₁ calls₂) :
    ∃ filters₁ built₁ filters₂ built₂,
      c.build w₁ = .ok filters₁ built₁ ∧ c.build w₂ = .ok filters₂ built₂ ∧
      let chain₁ := Chain.toFilter (StockFilter.toChain filters₁)
      let chain₂ := Chain.toFilter (StockFilter.toChain filters₂)
      let requests₁ := calls₁.map Rule.toRequest
      let requests₂ := calls₂.map Rule.toRequest
      (∃ got₁ got₂ : List Registration,
        (chain₁.course requests₁ built₁).map Prod.fst = got₁.map .registration ∧
        (chain₂.course requests₂ built₂).map Prod.fst = got₂.map .registration ∧
        List.Forall₂ (fun r₁ r₂ => r₁.reply = r₂.reply ∧ (r₁.id == r₂.id) = true) got₁ got₂ ∧
        List.Forall₂ (fun call r => r.id = call.1.withTags r.id.tags) calls₁ got₁ ∧
        List.Forall₂ (fun call r => r.id = call.1.withTags r.id.tags) calls₂ got₂) ∧
      ∀ n,
        (StockFilter.placesOfAll filters₁).map
            (Store.recordAt · (chain₁.after (requests₁.take n) built₁).state)
          = (StockFilter.placesOfAll filters₂).map
            (Store.recordAt · (chain₂.after (requests₂.take n) built₂).state) := by
  refine ⟨_, _, _, _, build_of_valid valid w₁, build_of_valid valid w₂, ?_⟩
  intro chain₁ chain₂ requests₁ requests₂
  have flat := flat_of_valid valid
  refine ⟨⟨_, _, Rule.map_fst_course_chain flat rfl calls₁,
    Rule.map_fst_course_chain flat rfl calls₂, Rule.outcomes_of_sameSeries same c.rules,
    Rule.outcomes_eq_withTags c.rules calls₁, Rule.outcomes_eq_withTags c.rules calls₂⟩, ?_⟩
  intro n
  calc _ = (Rule.reached c.rules ((Rule.mappedIds c.rules calls₁).take n)).filterMap
          (fun entry => entry.1.record? entry.2) := Rule.map_recordAt_after flat rfl calls₁ n
    _ = (Rule.reached c.rules ((Rule.mappedIds c.rules calls₂).take n)).filterMap
          (fun entry => entry.1.record? entry.2) := Rule.records_of_sameSeries same c.rules n
    _ = _ := (Rule.map_recordAt_after flat rfl calls₂ n).symm

/-- Counters are registered with the one chain, a timer in milliseconds and a gauge with a
    description with the other. The second value of the tag is too many for both chains. -/
theorem registrations_of_sameSeries_timed :
    let c : ChainConfig :=
      { rules := [.renameTag "requests" "path" "uri",
          .maximumAllowableTags "requests" "uri" 1 .deny, .maximumAllowableMetrics 2] }
    let a : MeterId := ⟨"requests", .counter, [⟨"path", "/a"⟩], none, none⟩
    let b : MeterId := ⟨"requests", .counter, [⟨"uri", "/b"⟩], none, none⟩
    let timed : MeterId := { a with type := .timer, baseUnit := some "ms" }
    let told : MeterId := { b with type := .gauge, description := some "open requests" }
    let counted := [(a, DistributionConfig.none), (b, DistributionConfig.none)]
    let others := [(timed, DistributionConfig.none), (told, DistributionConfig.none)]
    c.validate = .ok () ∧
    List.Forall₂ (fun call₁ call₂ => (call₁.1 == call₂.1) = true) counted others ∧
    ∃ filters₁ built₁ filters₂ built₂,
      c.build (.fresh {}) = .ok filters₁ built₁ ∧ c.build built₁ = .ok filters₂ built₂ ∧
      let chain₁ := Chain.toFilter (StockFilter.toChain filters₁)
      let chain₂ := Chain.toFilter (StockFilter.toChain filters₂)
      (chain₁.course (counted.map Rule.toRequest) built₁).map Prod.fst
        = [.registration ⟨a.withTags [⟨"uri", "/a"⟩], .neutral, none⟩,
          .registration ⟨b, .deny, none⟩] ∧
      (chain₂.course (others.map Rule.toRequest) built₂).map Prod.fst
        = [.registration ⟨timed.withTags [⟨"uri", "/a"⟩], .neutral, some .none⟩,
          .registration ⟨told, .deny, none⟩] ∧
      (StockFilter.placesOfAll filters₁).map
          (Store.recordAt · (chain₁.after (counted.map Rule.toRequest) built₁).state)
        = (StockFilter.placesOfAll filters₂).map
          (Store.recordAt · (chain₂.after (others.map Rule.toRequest) built₂).state) := by
  intro c a b timed told counted others
  have valid : c.validate = .ok () := by decide +kernel
  have same : List.Forall₂ (fun call₁ call₂ => (call₁.1 == call₂.1) = true) counted others :=
    .cons (by decide) (.cons (by decide) .nil)
  have first := build_of_valid valid (.fresh {})
  obtain ⟨filters₁, built₁, filters₂, built₂, ran₁, ran₂, -, records⟩ :=
    registrations_of_sameSeries c valid (.fresh {}) _ counted others same
  cases ran₁.symm.trans first
  refine ⟨valid, same, _, _, filters₂, built₂, first, ran₂, ?_, ?_, records 2⟩
  · decide +kernel
  · cases ran₂.symm.trans (build_of_valid valid _)
    decide +kernel

end ChainConfig

end MeterGate
