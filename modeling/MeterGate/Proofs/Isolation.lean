import MeterGate.Proofs.Alike
import MeterGate.Proofs.Passes

set_option autoImplicit false

/-! # Chains that are built separately

Every build gives the limiters of its rules places of their own, which nobody had before and nobody
loses (`Rule.has_buildAll`, `StockFilter.moves_grows`), so two chains that were built have no place
in common, and neither reaches the records of the other.

An owner of a chain is alone if its exchanges are those of a chain that is like its own and put to
its requests only (`Holdings.own_exchanges`). Two chains that are built from one config leave each
other alone (`ChainConfig.builds_isolated`): each is like a chain built anywhere else. -/

namespace MeterGate

/-! ## Owners who do not reach each other's memory -/

/-- Of entries with their owners, those of one owner. -/
def own {ι α : Type} [DecidableEq ι] (i : ι) (entries : List (ι × α)) : List α :=
  (entries.filter (·.1 = i)).map Prod.snd

theorem own_map {ι α β : Type} [DecidableEq ι] (i : ι) (f : α → β) (entries : List (ι × α)) :
    own i (entries.map fun entry => (entry.1, f entry.2)) = (own i entries).map f := by
  unfold own
  rw [List.filter_map, List.map_map, List.map_map]
  rfl

namespace Holdings

variable {ι σ τ : Type} [DecidableEq ι] {R : σ → τ → Prop} {i : ι} {g : Filter τ}

/-- If the chain of one owner is like a filter, over a memory with which the requests of others do
    not interfere, then its exchanges are those of the filter with its own requests. -/
theorem own_exchanges {h : Holdings ι σ} (alike : (h.filterOf i).Alike R g)
    (kept : ∀ j, j ≠ i → ∀ request s t, R s t → R ((h.filterOf j).exchange request s).2 t)
    (calls : List (ι × Request)) {t : τ} (related : R h.memory t) :
    (own i (h.exchanges (calls.map asked))).map Prod.fst
        = (g.exchanges (own i calls) t).map Prod.fst
      ∧ R (h.after (calls.map asked)).memory (g.memoryAfter (own i calls) t) := by
  induction calls generalizing h t with
  | nil => exact ⟨rfl, related⟩
  | cons call rest ih =>
      obtain ⟨j, request⟩ := call
      let next := h.act j (.ask request)
      -- the request changes no list, so the next holdings have the same filters
      have later := fun {t : τ} => ih (h := next) (t := t) alike kept
      by_cases mine : j = i
      · subst mine
        obtain ⟨same, led⟩ := alike.exchange request related
        obtain ⟨others, last⟩ := later led
        simp only [own, List.map_cons, asked, exchanges, List.filter_cons, decide_true, if_true,
          Filter.exchanges, same] at others ⊢
        exact ⟨congrArg (_ :: ·) others, last⟩
      · obtain ⟨others, last⟩ := later (kept j mine request _ _ related)
        simp only [own, List.map_cons, asked, exchanges, List.filter_cons, mine, decide_false,
          Bool.false_eq_true, if_false] at others ⊢
        exact ⟨others, last⟩

end Holdings

/-! ## Chains without a limiter in common -/

namespace StockFilter

theorem paired_exchange {fs : List StockFilter} {pairs : List (Place × Place)}
    (apart : ∀ p ∈ pairs, p.1 ∉ placesOfAll fs) (request : Request) {s t : Store}
    (paired : Store.Paired pairs s t) :
    Store.Paired pairs ((Chain.toFilter (toChain fs)).exchange request s).2 t := by
  intro p hp
  have kept : Store.recordAt p.1 ((Chain.toFilter (toChain fs)).exchange request s).2
      = Store.recordAt p.1 s := (keeps_toChain (apart p hp)).respond request (.fresh s)
  rw [kept, paired p hp]

end StockFilter

namespace Rule

variable {rules : List Rule}

/-- What is built over a store that the chain of other rules has used has none of its places. -/
theorem not_mem_places_buildAll_of_used {others : List Rule} {s : Store} {requests : List Request}
    {p : Place} (h : p ∈ StockFilter.placesOfAll (buildAll others s).1) :
    p ∉ StockFilter.placesOfAll
      (buildAll rules ((chain others s).memoryAfter requests (buildAll others s).2)).1 := by
  have grown := (StockFilter.moves_grows (.chain (buildAll others s).1)).memoryAfter requests
    (buildAll others s).2
  intro taken
  exact places_buildAll rules _ p taken (grown p (has_buildAll others s p h))

/-- The places of two builds of a list of rules, in pairs. -/
def placePairs (rules : List Rule) (s t : Store) : List (Place × Place) :=
  (StockFilter.placesOfAll (buildAll rules s).1).zip (StockFilter.placesOfAll (buildAll rules t).1)

theorem oneToOne_placePairs (rules : List Rule) (s t : Store) :
    Store.OneToOne (placePairs rules s t) :=
  Store.oneToOne_zip (nodup_places_buildAll rules s) (nodup_places_buildAll rules t)

/-- A list of rules builds chains that are alike, over whatever stores. -/
theorem alike_chain (rules : List Rule) (s t : Store) :
    (chain rules s).Alike (Store.Paired (placePairs rules s t)) (chain rules t) :=
  alike_buildAll (oneToOne_placePairs rules s t) rules s t fun _ hp => hp

theorem paired_buildAll (flat : ∀ rule ∈ rules, rule.Flat) (s t : Store) :
    Store.Paired (placePairs rules s t) (buildAll rules s).2 (buildAll rules t).2 := by
  refine Store.paired_zip ?_
  rw [map_recordAt_places flat (tracksAll_buildAll rules s),
    map_recordAt_places flat (tracksAll_buildAll rules t)]

theorem tracksAll_memoryAfter (flat : ∀ rule ∈ rules, rule.Flat) (s : Store)
    (calls : List (MeterId × DistributionConfig)) :
    TracksAll s rules (mappedIds rules calls)
      ((chain rules s).memoryAfter (calls.map toRequest) (buildAll rules s).2) := by
  induction calls using List.reverseRecOn with
  | nil => exact tracksAll_buildAll rules s
  | append_singleton calls call ih =>
      let now := (chain rules s).memoryAfter (calls.map toRequest) (buildAll rules s).2
      obtain ⟨w', answered, noted⟩ :=
        respond_chain (w := .fresh now) flat s _ call.1 call.2 ih
      rw [List.map_append, List.map_singleton, Filter.memoryAfter_append, mappedIds,
        List.map_append, List.map_singleton, toRequest]
      show TracksAll s rules _ ((chain rules s).exchange (.register call.1 call.2) now).2
      rw [Filter.exchange, answered]
      exact noted

/-! ## An owner among others -/

section

variable {ι : Type} [DecidableEq ι] {h : Holdings ι Store} {i : ι} {s t : Store}
  (mine : h.lists i = StockFilter.toChain (buildAll rules s).1)
  (others : ∀ j, j ≠ i → ∃ fs, h.lists j = StockFilter.toChain fs ∧
    ∀ p ∈ StockFilter.placesOfAll (buildAll rules s).1, p ∉ StockFilter.placesOfAll fs)
include mine others

/-- An owner of a built chain has the exchanges of a chain that is built elsewhere and has come as
    far, whatever the owners of chains without its places do, and the two chains come as far again.
    -/
theorem own_exchanges_chain {now : Store}
    (paired : Store.Paired (placePairs rules s t) h.memory now)
    (calls : List (ι × MeterId × DistributionConfig)) :
    let deeds := calls.map fun call => Holdings.asked (call.1, toRequest call.2)
    let requests := (own i calls).map toRequest
    (own i (h.exchanges deeds)).map Prod.fst
        = ((chain rules t).exchanges requests now).map Prod.fst
      ∧ Store.Paired (placePairs rules s t) (h.after deeds).memory
        ((chain rules t).memoryAfter requests now) := by
  intro deeds requests
  have alike : (h.filterOf i).Alike (Store.Paired (placePairs rules s t)) (chain rules t) := by
    rw [Holdings.filterOf, mine]
    exact alike_chain rules s t
  have kept : ∀ j, j ≠ i → ∀ request u v, Store.Paired (placePairs rules s t) u v →
      Store.Paired (placePairs rules s t) ((h.filterOf j).exchange request u).2 v := by
    intro j hj request u v related
    obtain ⟨fs, held, apart⟩ := others j hj
    rw [Holdings.filterOf, held]
    exact StockFilter.paired_exchange (fun p hp => apart p.1 (List.of_mem_zip hp).1) request related
  have isolated := Holdings.own_exchanges alike kept
    (calls.map fun call => (call.1, toRequest call.2)) paired
  rw [own_map, List.map_map] at isolated
  exact isolated

variable (past : List (MeterId × DistributionConfig))
  (paired : Store.Paired (placePairs rules s t) h.memory
    ((chain rules t).memoryAfter (past.map toRequest) (buildAll rules t).2))
  (calls : List (ι × MeterId × DistributionConfig))
include paired

/-- What the owner adds to the exchanges of the chain elsewhere is what this chain would add. -/
theorem exchanges_append_own :
    let deeds := calls.map fun call => Holdings.asked (call.1, toRequest call.2)
    ((chain rules t).exchanges (past.map toRequest) (buildAll rules t).2).map Prod.fst
        ++ (own i (h.exchanges deeds)).map Prod.fst
      = ((chain rules t).exchanges ((past ++ own i calls).map toRequest)
        (buildAll rules t).2).map Prod.fst := by
  intro deeds
  rw [(own_exchanges_chain mine others paired calls).1, List.map_append, Filter.exchanges_append,
    List.map_append]

theorem map_recordAt_of_owner (flat : ∀ rule ∈ rules, rule.Flat) :
    let deeds := calls.map fun call => Holdings.asked (call.1, toRequest call.2)
    (StockFilter.placesOfAll (buildAll rules s).1).map (Store.recordAt · (h.after deeds).memory)
      = (reached rules (mappedIds rules (past ++ own i calls))).filterMap
        fun entry => entry.1.record? entry.2 := by
  intro deeds
  have last := (own_exchanges_chain mine others paired calls).2
  rw [← Filter.memoryAfter_append, ← List.map_append] at last
  rw [Store.map_recordAt_of_paired (length_places_buildAll rules s t) last]
  exact map_recordAt_places flat (tracksAll_memoryAfter flat t (past ++ own i calls))

end

end Rule

/-! ## Two builds of a config -/

/-- The two who had a chain built. -/
inductive Owner where
  | first
  | second
deriving DecidableEq, Repr

namespace ChainConfig

/-- The exchanges of registrations with a chain that is built over a store and not used otherwise.
    A config that does not build has none. -/
def alone (c : ChainConfig) (calls : List (MeterId × DistributionConfig)) (s : Store) :
    List Exchange :=
  match c.build (.fresh s) with
  | .ok filters built =>
      ((Chain.toFilter (StockFilter.toChain filters)).exchanges (calls.map Rule.toRequest)
        built.state).map Prod.fst
  | .error _ _ => []

theorem alone_of_valid {c : ChainConfig} (valid : c.validate = .ok ())
    (calls : List (MeterId × DistributionConfig)) (s : Store) :
    c.alone calls s = ((Rule.chain c.rules s).exchanges (calls.map Rule.toRequest)
      (Rule.buildAll c.rules s).2).map Prod.fst := by
  unfold alone
  rw [build_of_valid valid]
  rfl

/-- **Chains that are built separately are isolated.** A good config is built over any store, some
    meters are registered with the chain, and the config is built again. Then meters are registered
    with either chain, in any order. The registrations of each chain, with the events reported
    during them, are those of a chain built from the config anywhere and used for these meters
    alone. All limiters of both chains have places of their own, and each limiter has the record of
    the ids that reached its rule in its own chain. -/
theorem builds_isolated (c : ChainConfig) (valid : c.validate = .ok ()) (s : Store)
    (early : List (MeterId × DistributionConfig))
    (calls : List (Owner × MeterId × DistributionConfig)) :
    ∃ filters₁ built₁, c.build (.fresh s) = .ok filters₁ built₁ ∧
      let chain₁ := Chain.toFilter (StockFilter.toChain filters₁)
      let used := chain₁.memoryAfter (early.map Rule.toRequest) built₁.state
      ∃ filters₂ built₂, c.build (.fresh used) = .ok filters₂ built₂ ∧
      let held : Holdings Owner Store :=
        ⟨fun | .first => StockFilter.toChain filters₁ | .second => StockFilter.toChain filters₂,
          built₂.state⟩
      let deeds := calls.map fun call => Holdings.asked (call.1, Rule.toRequest call.2)
      let got := fun i => (own i (held.exchanges deeds)).map Prod.fst
      let calls₁ := early ++ own .first calls
      let calls₂ := own .second calls
      (∀ t, (chain₁.exchanges (early.map Rule.toRequest) built₁.state).map Prod.fst ++ got .first
        = c.alone calls₁ t) ∧
      (∀ t, got .second = c.alone calls₂ t) ∧
      (StockFilter.placesOfAll filters₁ ++ StockFilter.placesOfAll filters₂).Nodup ∧
      (StockFilter.placesOfAll filters₁).map (Store.recordAt · (held.after deeds).memory)
        = (Rule.reached c.rules (Rule.mappedIds c.rules calls₁)).filterMap
          (fun entry => entry.1.record? entry.2) ∧
      (StockFilter.placesOfAll filters₂).map (Store.recordAt · (held.after deeds).memory)
        = (Rule.reached c.rules (Rule.mappedIds c.rules calls₂)).filterMap
          (fun entry => entry.1.record? entry.2) := by
  refine ⟨_, _, build_of_valid valid (.fresh s), ?_⟩
  intro chain₁ used
  refine ⟨_, _, build_of_valid valid (.fresh used), ?_⟩
  intro held deeds got calls₁ calls₂
  have flat := flat_of_valid valid
  -- when the second chain is built, the places of the first one are taken
  have apart : ∀ p ∈ StockFilter.placesOfAll (Rule.buildAll c.rules s).1,
      p ∉ StockFilter.placesOfAll (Rule.buildAll c.rules used).1 :=
    fun p hp => Rule.not_mem_places_buildAll_of_used hp
  have others₁ : ∀ j, j ≠ Owner.first → ∃ fs, held.lists j = StockFilter.toChain fs ∧
      ∀ p ∈ StockFilter.placesOfAll (Rule.buildAll c.rules s).1,
        p ∉ StockFilter.placesOfAll fs := by
    intro j hj
    cases j with
    | first => exact absurd rfl hj
    | second => exact ⟨_, rfl, apart⟩
  have others₂ : ∀ j, j ≠ Owner.second → ∃ fs, held.lists j = StockFilter.toChain fs ∧
      ∀ p ∈ StockFilter.placesOfAll (Rule.buildAll c.rules used).1,
        p ∉ StockFilter.placesOfAll fs := by
    intro j hj
    cases j with
    | first => exact ⟨_, rfl, fun p hp other => apart p other hp⟩
    | second => exact absurd rfl hj
  have before := fun t => (Rule.alike_chain c.rules s t).exchanges (early.map Rule.toRequest)
    (Rule.paired_buildAll flat s t)
  -- the second build changes no record of the first chain, and has blank records itself
  have start₁ : ∀ t, Store.Paired (Rule.placePairs c.rules s t) held.memory _ := fun t p hp =>
    ((Rule.extends_buildAll c.rules used).recordAt_eq p.1).trans ((before t).2 p hp)
  have start₂ := Rule.paired_buildAll flat used
  refine ⟨fun t => ?_, fun t => ?_, ?_, ?_, ?_⟩
  · rw [alone_of_valid valid, ← Rule.exchanges_append_own rfl others₁ early (start₁ t) calls]
    exact congrArg (· ++ _) (before t).1
  · rw [alone_of_valid valid]
    exact (Rule.own_exchanges_chain rfl others₂ (start₂ t) calls).1
  · refine List.nodup_append.2 ⟨Rule.nodup_places_buildAll c.rules s,
      Rule.nodup_places_buildAll c.rules used, fun p hp q hq => ?_⟩
    rintro rfl
    exact apart p hp hq
  · exact Rule.map_recordAt_of_owner rfl others₁ early (start₁ s) calls flat
  · exact Rule.map_recordAt_of_owner rfl others₂ [] (start₂ s) calls flat

/-- A config with the same cap twice is built two times. The first chain has seen one series before,
    so the next one is too many for it, and it does not reach the second of its caps. The second
    chain has room for that series, but not for a further one. -/
theorem builds_isolated_twice :
    let c : ChainConfig := { rules := [.maximumAllowableMetrics 1, .maximumAllowableMetrics 1] }
    let a : MeterId := ⟨"a", .counter, [], none, none⟩
    let b : MeterId := ⟨"b", .counter, [], none, none⟩
    let calls : List (Owner × MeterId × DistributionConfig) :=
      [(.second, b, .none), (.first, b, .none), (.second, a, .none)]
    c.validate = .ok () ∧
    ∃ filters₁ built₁, c.build (.fresh {}) = .ok filters₁ built₁ ∧
      let chain₁ := Chain.toFilter (StockFilter.toChain filters₁)
      let used := chain₁.memoryAfter [.register a .none] built₁.state
      ∃ filters₂ built₂, c.build (.fresh used) = .ok filters₂ built₂ ∧
      let held : Holdings Owner Store :=
        ⟨fun | .first => StockFilter.toChain filters₁ | .second => StockFilter.toChain filters₂,
          built₂.state⟩
      let deeds := calls.map fun call => Holdings.asked (call.1, Rule.toRequest call.2)
      (own .first (held.exchanges deeds)).map Prod.fst
        = [⟨.registration ⟨b, .deny, none⟩, [.metricCapTripped "b" 1, .ofVerdict b .deny], []⟩] ∧
      (own .second (held.exchanges deeds)).map Prod.fst
        = c.alone [(b, .none), (a, .none)] {} ∧
      (StockFilter.placesOfAll filters₁).map (Store.recordAt · (held.after deeds).memory)
        = [.inl ⟨[a.series, b.series], true⟩, .inl ⟨[a.series], false⟩] := by
  intro c a b calls
  have valid : c.validate = .ok () := by decide +kernel
  obtain ⟨filters₁, built₁, ran₁, filters₂, built₂, ran₂, alone₁, alone₂, -, records₁, -⟩ :=
    builds_isolated c valid {} [(a, .none)] calls
  refine ⟨valid, filters₁, built₁, ran₁, filters₂, built₂, ran₂, ?_, alone₂ {}, ?_⟩
  · cases ran₁.symm.trans (build_of_valid valid (.fresh {}))
    exact List.append_cancel_left ((alone₁ {}).trans (by decide +kernel))
  · exact records₁.trans (by decide +kernel)

end ChainConfig

end MeterGate
