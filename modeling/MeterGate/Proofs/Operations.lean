import MeterGate.Proofs.MetricCap
import MeterGate.Proofs.Panic
import MeterGate.Proofs.ReadOnly

set_option autoImplicit false

/-! # The operations of a registration

A registration with a chain is a list of operations of its filters (`Chain.Operation`), done one
after another, and nothing besides (`Chain.Runs`). The mapping pass and the configuration pass go
through the whole chain, each operation on what the one before gave (`Chain.handedOn`). The
admission pass asks the filters about the mapped id up to the first opinion (`Chain.asking`,
`Chain.UpToOpinion`).

The filters may remember, report and do what they like, so the worlds between the operations tell
them apart. If they are put under watch, what is taken down is the list of operations
(`Chain.calls_of_leads`). What nobody reaches but filters behind the first opinion stays as it was
(`Chain.keeps_of_runs`). -/

namespace MeterGate

namespace Chain

variable {σ : Type} {chain : Chain σ}

/-! ## Operations -/

/-- One operation of the filter at a place of a chain: what it was applied to, and what it gave. -/
inductive Operation where
  | map (place : Nat) (id mapped : MeterId)
  | accept (place : Nat) (id : MeterId) (reply : Reply)
  | configure (place : Nat) (id : MeterId) (config configured : DistributionConfig)
deriving DecidableEq, Repr

/-- What is taken down of an operation if the filter at each place is under watch with a label. -/
def Operation.call (label : Nat → String) : Operation → Call
  | .map place id _ => .map (label place) id
  | .accept place id _ => .accept (label place) id
  | .configure place id config _ => .configure (label place) id config

/-- In a world the operation gives what it says, and leaves another world. -/
def Operation.Leads (chain : Chain σ) (w w' : World σ) : Operation → Prop
  | .map place id mapped => ∃ f, chain[place]? = some f ∧ f.map id w = .ok mapped w'
  | .accept place id reply => ∃ f, chain[place]? = some f ∧ f.accept id w = .ok reply w'
  | .configure place id config configured =>
      ∃ f, chain[place]? = some f ∧ f.configure id config w = .ok configured w'

/-- Operations that are done one after another lead from one world to another. -/
inductive Runs (chain : Chain σ) : List Operation → World σ → World σ → Prop where
  | done (w : World σ) : Runs chain [] w w
  | step {op : Operation} {ops : List Operation} {w w₁ w₂ : World σ} :
      op.Leads chain w w₁ → Runs chain ops w₁ w₂ → Runs chain (op :: ops) w w₂

theorem Runs.append {xs ys : List Operation} {w w₁ w₂ : World σ} (first : Runs chain xs w w₁)
    (second : Runs chain ys w₁ w₂) : Runs chain (xs ++ ys) w w₂ := by
  induction first with
  | done => exact second
  | step leads _ ih => exact .step leads (ih second)

/-- The operations of a pass from a place on in which each filter is given what the one before it
    gave, and the first one `a`. -/
def handedOn {α : Type} (op : Nat → α → α → Operation) : Nat → α → List α → List Operation
  | _, _, [] => []
  | place, a, b :: rest => op place a b :: handedOn op (place + 1) b rest

/-- The operations of a pass from a place on in which the filters answer about an id. -/
def asking (id : MeterId) : Nat → List Reply → List Operation
  | _, [] => []
  | place, reply :: rest => .accept place id reply :: asking id (place + 1) rest

/-- The operations of a registration: what the filters in turn made of the id, what those said that
    were asked, and what the filters in turn made of the histogram settings. -/
def operations (id : MeterId) (ids : List MeterId) (replies : List Reply)
    (initial : DistributionConfig) (configs : List DistributionConfig) : List Operation :=
  let mapped := ids.getLastD id
  handedOn .map 0 id ids ++ asking mapped 0 replies
    ++ handedOn (.configure · mapped) 0 initial configs

/-- The replies of up to `n` filters: they end with the first opinion, or with the last filter. -/
structure UpToOpinion (n : Nat) (replies : List Reply) : Prop where
  length_le : replies.length ≤ n
  neutral_before : ∀ i, i + 1 < replies.length → replies[i]? = some .neutral
  length_eq : replies.getLastD .neutral = .neutral → replies.length = n

theorem UpToOpinion.opinion {n : Nat} {reply : Reply} (h : reply ≠ .neutral) :
    UpToOpinion (n + 1) [reply] where
  length_le := by simp
  neutral_before i hi := by simp at hi
  length_eq last := absurd last h

theorem UpToOpinion.cons {n : Nat} {replies : List Reply} (h : UpToOpinion n replies) :
    UpToOpinion (n + 1) (.neutral :: replies) where
  length_le := Nat.succ_le_succ h.length_le
  neutral_before i hi := by
    cases i with
    | zero => rfl
    | succ i => exact h.neutral_before i (Nat.lt_of_succ_lt_succ hi)
  length_eq last := by
    rw [List.getLastD_cons] at last
    exact congrArg (· + 1) (h.length_eq last)

/-! ## Passes -/

theorem getElem?_append_cons (front rest : Chain σ) (f : Filter σ) :
    (front ++ f :: rest)[front.length]? = some f := by simp

/-- A pass in which each filter is given what the one before gave goes through the whole chain,
    here its part after `front`. -/
theorem runs_handedOn {α : Type} (run : Filter σ → α → Eval σ α) (pass : Chain σ → α → Eval σ α)
    (op : Nat → α → α → Operation) (nil : ∀ a, pass [] a = pure a)
    (cons : ∀ f rest a, pass (f :: rest) a = run f a >>= pass rest)
    (leads : ∀ {place f a b w w'}, chain[place]? = some f → run f a w = .ok b w' →
      (op place a b).Leads chain w w')
    {front rest : Chain σ} (split : chain = front ++ rest)
    (returns : ∀ f ∈ rest, ∀ a, (run f a).Returns) (a : α) (w : World σ) :
    ∃ given w', pass rest a w = .ok (given.getLastD a) w' ∧ given.length = rest.length ∧
      Runs chain (handedOn op front.length a given) w w' := by
  induction rest generalizing front a w with
  | nil => exact ⟨[], w, by rw [nil]; rfl, rfl, .done w⟩
  | cons f rest ih =>
      obtain ⟨returnsFirst, returnsRest⟩ := List.forall_mem_cons.1 returns
      obtain ⟨b, answered⟩ := returnsFirst a w
      obtain ⟨w₁, ran⟩ := Eval.ok_of_outcome answered
      -- the rest of the chain starts one place further on
      have later : chain = (front ++ [f]) ++ rest := by simp [split]
      obtain ⟨given, w', passed, count, runs⟩ := ih later returnsRest b w₁
      rw [List.length_append, List.length_singleton] at runs
      refine ⟨b :: given, w', ?_, congrArg (· + 1) count, ?_⟩
      · rw [cons, Eval.bind_apply, ran, List.getLastD_cons]
        exact passed
      · refine .step (leads ?_ ran) runs
        rw [split]
        exact getElem?_append_cons front rest f

/-- The admission pass asks up to the first opinion, here among the filters after `front`. -/
theorem runs_asking {front rest : Chain σ} (split : chain = front ++ rest)
    (returns : ∀ f ∈ rest, f.Returns) (id : MeterId) (w : World σ) :
    ∃ replies w', accept rest id w = .ok (replies.getLastD .neutral) w' ∧
      UpToOpinion rest.length replies ∧ Runs chain (asking id front.length replies) w w' := by
  induction rest generalizing front w with
  | nil =>
      refine ⟨[], w, rfl, ⟨Nat.le_refl 0, fun i hi => ?_, fun _ => rfl⟩, .done w⟩
      simp at hi
  | cons f rest ih =>
      obtain ⟨returnsFirst, returnsRest⟩ := List.forall_mem_cons.1 returns
      obtain ⟨reply, answered⟩ := returnsFirst.accept id w
      obtain ⟨w₁, ran⟩ := Eval.ok_of_outcome answered
      have asked : (Operation.accept front.length id reply).Leads chain w w₁ :=
        ⟨f, by rw [split]; exact getElem?_append_cons front rest f, ran⟩
      by_cases opinion : reply = .neutral
      · subst opinion
        have later : chain = (front ++ [f]) ++ rest := by simp [split]
        obtain ⟨replies, w', passed, upTo, runs⟩ := ih later returnsRest w₁
        rw [List.length_append, List.length_singleton] at runs
        refine ⟨.neutral :: replies, w', ?_, upTo.cons, .step asked runs⟩
        simp only [accept, Eval.bind_apply, ran]
        rw [List.getLastD_cons]
        exact passed
      · refine ⟨[reply], w₁, ?_, .opinion opinion, .step asked (.done w₁)⟩
        simp only [accept, Eval.bind_apply, ran]
        cases reply with
        | accept | deny => rfl
        | neutral => exact absurd rfl opinion

/-! ## What operations leave behind -/

theorem Runs.keeps {γ : Type} {g : σ → γ} {ops : List Operation} {w w' : World σ}
    (runs : Runs chain ops w w')
    (each : ∀ op ∈ ops, ∀ u u', op.Leads chain u u' → g u'.state = g u.state) :
    g w'.state = g w.state := by
  induction runs with
  | done => rfl
  | step leads _ ih =>
      obtain ⟨first, rest⟩ := List.forall_mem_cons.1 each
      exact (ih rest).trans (first _ _ leads)

theorem Runs.calls {label : Nat → String} {ops : List Operation} {w w' : World σ}
    (runs : Runs chain ops w w')
    (each : ∀ (op : Operation) (u u' : World σ), op.Leads chain u u' →
      u'.calls = u.calls ++ [op.call label]) :
    w'.calls = w.calls ++ ops.map (Operation.call label) := by
  induction runs with
  | done => simp
  | step leads _ ih =>
      rw [ih, each _ _ _ leads, List.map_cons, List.append_assoc, List.singleton_append]

theorem mem_handedOn {α : Type} {op : Nat → α → α → Operation} {place : Nat} {a : α}
    {given : List α} {o : Operation} (h : o ∈ handedOn op place a given) :
    ∃ place a b, o = op place a b := by
  induction given generalizing place a with
  | nil => simp [handedOn] at h
  | cons b rest ih =>
      rcases List.mem_cons.1 h with rfl | h
      · exact ⟨place, a, b, rfl⟩
      · exact ih h

theorem mem_asking {id : MeterId} {place : Nat} {replies : List Reply} {o : Operation}
    (h : o ∈ asking id place replies) :
    ∃ i reply, i < replies.length ∧ o = .accept (place + i) id reply := by
  induction replies generalizing place with
  | nil => simp [asking] at h
  | cons reply rest ih =>
      rcases List.mem_cons.1 h with rfl | h
      · exact ⟨0, reply, Nat.succ_pos _, rfl⟩
      · obtain ⟨i, reply, hi, rfl⟩ := ih h
        refine ⟨i + 1, reply, Nat.succ_lt_succ hi, ?_⟩
        rw [Nat.add_assoc, Nat.add_comm 1 i]

/-- What no mapping and no configuration changes, and none of the filters that were asked, is kept
    by the operations of a registration. -/
theorem keeps_of_runs {γ : Type} {g : σ → γ} (map : ∀ f ∈ chain, ∀ id, (f.map id).Keeps g)
    (configure : ∀ f ∈ chain, ∀ id config, (f.configure id config).Keeps g) {id : MeterId}
    {initial : DistributionConfig} {ids : List MeterId} {replies : List Reply}
    {configs : List DistributionConfig} {w w' : World σ}
    (accept : ∀ f ∈ chain.take replies.length, ∀ id, (f.accept id).Keeps g)
    (runs : Runs chain (operations id ids replies initial configs) w w') :
    g w'.state = g w.state := by
  refine runs.keeps fun op listed u u' leads => ?_
  rw [operations, List.mem_append, List.mem_append] at listed
  rcases listed with (listed | listed) | listed
  · obtain ⟨place, a, b, rfl⟩ := mem_handedOn listed
    obtain ⟨f, found, ran⟩ := leads
    exact (map f (List.mem_of_getElem? found) a).of_ok ran
  · obtain ⟨i, reply, hi, rfl⟩ := mem_asking listed
    obtain ⟨f, found, ran⟩ := leads
    rw [Nat.zero_add] at found
    have among : f ∈ chain.take replies.length :=
      List.mem_of_getElem? ((List.getElem?_take_of_lt hi).trans found)
    exact (accept f among _).of_ok ran
  · obtain ⟨place, a, b, rfl⟩ := mem_handedOn listed
    obtain ⟨f, found, ran⟩ := leads
    exact (configure f (List.mem_of_getElem? found) _ a).of_ok ran

end Chain

/-! ## Filters under watch -/

/-- No operation of the filter takes anything down. -/
structure Filter.Unwatched {σ : Type} (f : Filter σ) : Prop where
  map : ∀ id w, ((f.map id).worldAfter w).calls = w.calls
  accept : ∀ id w, ((f.accept id).worldAfter w).calls = w.calls
  configure : ∀ id config w, ((f.configure id config).worldAfter w).calls = w.calls

namespace Chain

variable {σ : Type}

/-- The filters of a chain, each under watch with the label of its place. -/
def watchedAll (label : Nat → String) (plain : Chain σ) : Chain σ :=
  plain.mapIdx fun place f => f.watched (label place)

/-- What is taken down before a computation that takes nothing down itself is all. -/
theorem calls_of_watch {α : Type} {x : Eval σ α} {c : Call} {w w' : World σ} {a : α}
    (unwatched : ∀ w, (x.worldAfter w).calls = w.calls)
    (ran : (do Eval.watch c; x) w = .ok a w') : w'.calls = w.calls ++ [c] := by
  have inner : x (w.watch c) = .ok a w' := ran
  have same := unwatched (w.watch c)
  unfold Eval.worldAfter at same
  rw [inner] at same
  exact same

/-- If the filters of a chain are under watch, an operation takes itself down. -/
theorem calls_of_leads {label : Nat → String} {plain : Chain σ}
    (unwatched : ∀ f ∈ plain, f.Unwatched) (op : Operation) (w w' : World σ)
    (leads : op.Leads (watchedAll label plain) w w') : w'.calls = w.calls ++ [op.call label] := by
  have inner : ∀ {place : Nat} {f : Filter σ}, (watchedAll label plain)[place]? = some f →
      ∃ f₀ ∈ plain, f = f₀.watched (label place) := by
    intro place f found
    rw [watchedAll, List.getElem?_mapIdx, Option.map_eq_some_iff] at found
    obtain ⟨f₀, found, rfl⟩ := found
    exact ⟨f₀, List.mem_of_getElem? found, rfl⟩
  cases op with
  | map place id mapped =>
      obtain ⟨f, found, ran⟩ := leads
      obtain ⟨f₀, listed, rfl⟩ := inner found
      exact calls_of_watch ((unwatched f₀ listed).map id) ran
  | accept place id reply =>
      obtain ⟨f, found, ran⟩ := leads
      obtain ⟨f₀, listed, rfl⟩ := inner found
      exact calls_of_watch ((unwatched f₀ listed).accept id) ran
  | configure place id config configured =>
      obtain ⟨f, found, ran⟩ := leads
      obtain ⟨f₀, listed, rfl⟩ := inner found
      exact calls_of_watch ((unwatched f₀ listed).configure id config) ran

/-! ## Registrations -/

/-- The three passes of a registration with filters that do not panic. -/
theorem exists_runs_register {chain : Chain σ} (returns : ∀ f ∈ chain, f.Returns) (id : MeterId)
    (initial : DistributionConfig) (w : World σ) :
    ∃ (ids : List MeterId) (replies : List Reply) (configs : List DistributionConfig)
      (w' : World σ),
      let mapped := ids.getLastD id
      let used := mapped.type.usesDistributionConfig
      ids.length = chain.length ∧ UpToOpinion chain.length replies ∧
      configs.length = (if used then chain.length else 0) ∧
      Runs chain (operations id ids replies initial configs) w w' ∧
      register chain id initial w = .ok
        ⟨mapped, replies.getLastD .neutral, if used then some (configs.getLastD initial) else none⟩
        (w'.log (.ofVerdict mapped (replies.getLastD .neutral))) := by
  have whole : chain = [] ++ chain := rfl
  obtain ⟨ids, w₁, map, mapCount, mapping⟩ := runs_handedOn Filter.map Chain.map .map
    (fun _ => rfl) (fun _ _ _ => rfl) (fun found ran => ⟨_, found, ran⟩) whole
    (fun f hf => (returns f hf).map) id w
  obtain ⟨replies, w₂, accept, upTo, asking⟩ := runs_asking whole returns (ids.getLastD id) w₁
  by_cases used : (ids.getLastD id).type.usesDistributionConfig = true
  · obtain ⟨configs, w₃, configure, configCount, configuring⟩ := runs_handedOn
      (fun f => f.configure (ids.getLastD id)) (fun fs => Chain.configure fs (ids.getLastD id))
      (.configure · (ids.getLastD id)) (fun _ => rfl) (fun _ _ _ => rfl)
      (fun found ran => ⟨_, found, ran⟩) whole (fun f hf => (returns f hf).configure _) initial w₂
    refine ⟨ids, replies, configs, w₃, mapCount, upTo, ?_,
      (mapping.append asking).append configuring, ?_⟩
    · rw [if_pos used, configCount]
    · rw [if_pos used]
      refine Filter.register_of_ok (f := toFilter chain) map accept ?_
      have settings : (toFilter chain).configure (ids.getLastD id) initial w₂ = _ := configure
      simp only [Filter.configureIfUsed, used, if_true, map_eq_pure_bind, Eval.bind_apply, settings,
        Eval.pure_apply]
  · refine ⟨ids, replies, [], w₂, mapCount, upTo, ?_, ?_, ?_⟩
    · rw [if_neg used]
      rfl
    · rw [operations, handedOn, List.append_nil]
      exact mapping.append asking
    · rw [if_neg used]
      refine Filter.register_of_ok (f := toFilter chain) map accept ?_
      simp only [Filter.configureIfUsed, used, Bool.false_eq_true, if_false, Eval.pure_apply]

theorem accept_of_decided {before after : Chain σ} {id : MeterId} {reply : Reply} {w w' : World σ}
    (asked : accept before id w = .ok reply w') (opinion : reply ≠ .neutral) :
    accept (before ++ after) id w = .ok reply w' := by
  rw [accept_append, Eval.bind_apply, asked]
  cases reply with
  | accept | deny => rfl
  | neutral => exact absurd rfl opinion

end Chain

/-- A limiter that stands only behind the filters that decided about a meter keeps its record. -/
theorem StockFilter.recordAt_register_of_decided (filters : List StockFilter) (k : Nat)
    {id : MeterId} {initial : DistributionConfig} {reply : Reply} {w : World Store}
    (decided : (Chain.map (toChain filters) id
      >>= Chain.accept (toChain (filters.take k))).outcome w = .ok reply)
    (opinion : reply ≠ .neutral) {p : Place} (behind : p ∉ placesOfAll (filters.take k)) :
    Store.recordAt p ((Chain.register (toChain filters) id initial).worldAfter w).state
      = Store.recordAt p w.state := by
  obtain ⟨w₂, decided⟩ := Eval.ok_of_outcome decided
  -- mapping and configuration only read, and the filters that were asked do not reach the record
  have kept : (Chain.map (toChain filters) id >>= Chain.accept (toChain (filters.take k))).Keeps
      (Store.recordAt p) := by
    refine .bind (fun u => ?_) fun mapped => (keeps_toChain behind).accept mapped
    exact congrArg (Store.recordAt p) ((chain filters).moves_map id u).symm
  have asked : ((Chain.toFilter (toChain filters)).map id
      >>= (Chain.toFilter (toChain filters)).accept) w = .ok reply w₂ := by
    obtain ⟨mapped, w₁, map, accept⟩ := Eval.ok_of_bind_ok decided
    have all : toChain filters = toChain (filters.take k) ++ toChain (filters.drop k) := by
      rw [← toChain_append, List.take_append_drop]
    have passed : Chain.accept (toChain filters) mapped w₁ = .ok reply w₂ := by
      rw [all]
      exact Chain.accept_of_decided accept opinion
    show (Chain.map (toChain filters) id >>= Chain.accept (toChain filters)) w = _
    rw [Eval.bind_apply, map]
    exact passed
  calc Store.recordAt p ((Chain.register (toChain filters) id initial).worldAfter w).state
      = Store.recordAt p (((Chain.toFilter (toChain filters)).map id
          >>= (Chain.toFilter (toChain filters)).accept).worldAfter w).state := by
        refine Filter.keeps_register (fun mapped config u => ?_) id initial w
        exact congrArg (Store.recordAt p) ((chain filters).moves_configure mapped config u).symm
    _ = Store.recordAt p w₂.state := by rw [Eval.worldAfter_of_ok asked]
    _ = Store.recordAt p w.state := kept.of_ok decided

/-- **What a registration does.** Whatever the filters of a chain do, as long as they do not panic,
    a registration is a run of their operations: all of them map in turn, each the id that the one
    before gave; then they are asked about the mapped id, up to the first opinion; and then, for a
    timer or a distribution summary, all of them configure in turn, whatever the verdict was. The
    outcome is the mapped id, the last reply and the last settings, and after all that the filters
    reported the verdict is reported, at debug level if it is a denial. The operations are what is
    taken down when the filters are put under watch. What only filters behind the first opinion
    change when they are asked stays as it was, and so does the record of a limiter that stands
    nowhere but behind the filters that decided. -/
theorem Chain.register_operations :
    (∀ {σ : Type} (chain : Chain σ), (∀ f ∈ chain, f.Returns) →
      ∀ (id : MeterId) (initial : DistributionConfig) (w : World σ),
      ∃ (ids : List MeterId) (replies : List Reply) (configs : List DistributionConfig)
        (w' : World σ),
        let mapped := ids.getLastD id
        let reply := replies.getLastD .neutral
        let used := mapped.type = .timer ∨ mapped.type = .distributionSummary
        let steps := operations id ids replies initial configs
        ids.length = chain.length ∧ UpToOpinion chain.length replies ∧
        configs.length = (if used then chain.length else 0) ∧
        Runs chain steps w w' ∧
        register chain id initial w
          = .ok ⟨mapped, reply, if used then some (configs.getLastD initial) else none⟩
            (w'.log (.ofVerdict mapped reply)) ∧
        (Event.ofVerdict mapped reply).level = (if reply = .deny then .debug else .trace) ∧
        (∀ (label : Nat → String) (plain : Chain σ), chain = watchedAll label plain →
          (∀ f ∈ plain, f.Unwatched) → w'.calls = w.calls ++ steps.map (Operation.call label)) ∧
        ∀ {γ : Type} (g : σ → γ), (∀ f ∈ chain, ∀ id, (f.map id).Keeps g) →
          (∀ f ∈ chain, ∀ id config, (f.configure id config).Keeps g) →
          (∀ f ∈ chain.take replies.length, ∀ id, (f.accept id).Keeps g) →
          g w'.state = g w.state) ∧
    ∀ (filters : List StockFilter) (k : Nat) (id : MeterId) (initial : DistributionConfig)
      (w : World Store) (reply : Reply),
      let chain := StockFilter.toChain filters
      (map chain id >>= accept (chain.take k)).outcome w = .ok reply → reply ≠ .neutral →
      ∀ p ∉ StockFilter.placesOfAll (filters.take k),
        Store.recordAt p ((register chain id initial).worldAfter w).state
          = Store.recordAt p w.state := by
  refine ⟨fun {σ} chain returns id initial w => ?_, ?_⟩
  · obtain ⟨ids, replies, configs, w', mapCount, upTo, configCount, runs, registered⟩ :=
      exists_runs_register returns id initial w
    refine ⟨ids, replies, configs, w', ?_⟩
    intro mapped reply used steps
    have uses : mapped.type.usesDistributionConfig = true ↔ used :=
      mapped.type.usesDistributionConfig_iff
    simp only [mapped, uses] at configCount registered
    refine ⟨mapCount, upTo, configCount, runs, registered, Event.level_ofVerdict _ _, ?_, ?_⟩
    · rintro label plain rfl unwatched
      exact runs.calls (calls_of_leads unwatched)
    · intro γ g map configure accept
      exact keeps_of_runs map configure accept runs
  · intro filters k id initial w reply chain decided opinion p behind
    have first : chain.take k = StockFilter.toChain (filters.take k) := by
      simp only [chain, StockFilter.toChain_eq_map, List.map_take]
    rw [first] at decided
    exact StockFilter.recordAt_register_of_decided filters k decided opinion behind

/-- A meter is tagged, and then denied for its name. The cap behind is asked to map and to configure
    it, but not about it, and has not seen it afterwards. -/
theorem Chain.register_operations_denied :
    let plain : List StockFilter :=
      [.commonTags [⟨"env", "prod"⟩], .denyNameStartsWith "jvm", .metricCap 0 0]
    let label : Nat → String := fun place => ["tags", "jvm", "cap"].getD place ""
    let chain := watchedAll label (StockFilter.toChain plain)
    let id : MeterId := ⟨"jvm.gc", .timer, [], none, none⟩
    let mapped : MeterId := ⟨"jvm.gc", .timer, [⟨"env", "prod"⟩], none, none⟩
    (∀ f ∈ chain, f.Returns) ∧
    (∃ ids replies configs,
      (operations id ids replies .none configs).map (Operation.call label)
        = [.map "tags" id, .map "jvm" mapped, .map "cap" mapped, .accept "tags" mapped,
          .accept "jvm" mapped, .configure "tags" mapped .none, .configure "jvm" mapped .none,
          .configure "cap" mapped .none] ∧
      ids.getLastD id = mapped ∧ replies.getLastD .neutral = .deny) ∧
    Store.recordAt (.metric 0)
        ((register (StockFilter.toChain plain) id .none).worldAfter (.fresh {})).state
      = .inl {} := by
  intro plain label chain id mapped
  obtain ⟨general, stock⟩ := register_operations
  have plainReturns : ∀ f ∈ StockFilter.toChain plain, f.Returns := by
    simp only [plain, StockFilter.toChain, List.forall_mem_cons]
    exact ⟨StockFilter.returns_toFilter trivial, StockFilter.returns_toFilter trivial,
      StockFilter.returns_toFilter trivial, List.forall_mem_nil _⟩
  have returns : ∀ f ∈ chain, f.Returns := by
    intro f hf
    obtain ⟨place, hplace, rfl⟩ := List.mem_mapIdx.1 hf
    exact (plainReturns _ (List.getElem_mem hplace)).watched _
  have unwatched : ∀ f ∈ StockFilter.toChain plain, f.Unwatched := by
    simp only [plain, StockFilter.toChain, List.forall_mem_cons]
    refine ⟨⟨fun _ _ => rfl, fun _ _ => rfl, fun _ _ _ => rfl⟩,
      ⟨fun _ _ => rfl, fun _ _ => rfl, fun _ _ _ => rfl⟩,
      ⟨fun _ _ => rfl, fun id w => ?_, fun _ _ _ => rfl⟩, List.forall_mem_nil _⟩
    show ((MetricCap.accept (Store.metricCell 0) 0 id).worldAfter w).calls = w.calls
    unfold Eval.worldAfter
    rw [MetricCap.accept_apply]
    by_cases exceeds : (((Store.metricCell 0).get w.state).offer 0 id.series).isOver 0 = true
    · simp only [exceeds, if_true]
      exact World.calls_put _ _ w
    · simp only [exceeds]
      exact World.calls_put _ _ w
  refine ⟨returns, ?_, ?_⟩
  · obtain ⟨ids, replies, configs, w', -, -, -, -, registered, -, taken, -⟩ :=
      general chain returns id .none (.fresh {})
    have response := (toFilter chain).respond_register id .none (.fresh {})
    rw [show (toFilter chain).register id .none (.fresh {}) = _ from registered] at response
    have given : ((toFilter chain).respond (.register id .none) (.fresh {})).1
        = .registration ⟨mapped, .deny, some .none⟩ := by decide +kernel
    have noted : ((toFilter chain).respond (.register id .none) (.fresh {})).2.calls
        = [.map "tags" id, .map "jvm" mapped, .map "cap" mapped, .accept "tags" mapped,
          .accept "jvm" mapped, .configure "tags" mapped .none, .configure "jvm" mapped .none,
          .configure "cap" mapped .none] := by decide +kernel
    rw [response] at given noted
    injection given with outcome
    injection outcome with sameId sameReply
    exact ⟨ids, replies, configs, (taken label _ rfl unwatched).symm.trans noted, sameId, sameReply⟩
  · have decided : (map (StockFilter.toChain plain) id
        >>= accept ((StockFilter.toChain plain).take 2)).outcome (.fresh {}) = .ok .deny := by
      decide +kernel
    exact stock plain 2 id .none (.fresh {}) .deny decided (by decide) (.metric 0) (by decide)

end MeterGate
