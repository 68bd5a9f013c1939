import MeterGate.Proofs.Panic
import MeterGate.Proofs.ReadOnly
import MeterGate.Proofs.Steps

set_option autoImplicit false

/-! # What a panic leaves behind

A panic of a closure ends a registration at once, and everything that came before it stays. In the
mapping pass nothing has been remembered or reported yet; in the configuration pass the question
about admission has been asked, and what it left is left. Nothing is half done: whatever is asked of
the chain afterwards is answered as if the registration had only come to where it did
(`StockFilter.panic_of_register`).

To say what admission does in the middle of a registration by what it does on its own, computations
must not look at what has been reported before them (`Eval.Blind`). The passes before and after it
are taken step by step, and a registration that panics does so in one of the three
(`StockFilter.panic_cases`). -/

namespace MeterGate

/-! ## Computations that do not look back -/

/-- A world with the reports of another one before its own. -/
def World.behind {σ : Type} (w v : World σ) : World σ :=
  { w with events := v.events ++ w.events, calls := v.calls ++ w.calls }

namespace Eval

variable {σ α β : Type}

/-- A computation does the same whatever has been reported before it. -/
def Blind (x : Eval σ α) : Prop := ∀ v w : World σ, x (w.behind v) =
  match x w with
  | .ok a w' => .ok a (w'.behind v)
  | .error p w' => .error p (w'.behind v)

namespace Blind

theorem pure (a : α) : Blind (pure a : Eval σ α) := fun _ _ => rfl

theorem log (e : Event) : Blind (log e : Eval σ Unit) := by
  intro v w
  simp only [log_apply, World.log, World.behind, List.append_assoc]

theorem watch (c : Call) : Blind (watch c : Eval σ Unit) := by
  intro v w
  simp only [watch_apply, World.watch, World.behind, List.append_assoc]

theorem read (c : Cell σ α) : Blind (read c) := fun _ _ => rfl

theorem write [DecidableEq α] (c : Cell σ α) (a : α) : Blind (write c a) := by
  intro v w
  rw [write_apply, write_apply]
  unfold World.put
  by_cases held : c.get w.state = a
  · simp only [World.behind, held, if_true]
  · simp only [World.behind, held, if_false]

theorem ofClosure (answer : Except Panic α) : Blind (ofClosure answer : Eval σ α) := by
  cases answer <;> exact fun _ _ => rfl

theorem bind {x : Eval σ α} {f : α → Eval σ β} (hx : Blind x) (hf : ∀ a, Blind (f a)) :
    Blind (x >>= f) := by
  intro v w
  rw [bind_apply, bind_apply, hx v w]
  cases x w with
  | ok a w' => exact hf a v w'
  | error p w' => rfl

end Blind

theorem Composes.blind : Composes (Blind : ∀ {α : Type}, Eval σ α → Prop) :=
  ⟨.pure, .log, .watch, .bind⟩

end Eval

namespace StockFilter

/-- Admission does the same whatever has been reported before. -/
theorem blind_accept (f : StockFilter) (id : MeterId) : (f.toFilter.accept id).Blind := by
  induction f using induction with
  | byPredicate | acceptClosure => exact .ofClosure _
  | metricCap place max => exact MetricCap.accept_of .blind (.read _) (.write _) max id
  | tagCap place limit overflow ih => exact TagCap.accept_of .blind (.read _) (.write _) limit ih
  | boxed inner ih => exact ih
  | chain filters ih =>
      rw [toFilter_chain]
      refine Chain.accept_of .blind fun f' hf' => ?_
      obtain ⟨f, hf, rfl⟩ := List.mem_map.1 hf'
      exact ih f hf
  | watched label inner ih => exact (Eval.Blind.watch _).bind fun _ => ih
  | _ => exact .pure _

end StockFilter

/-! ## Where a registration ends -/

namespace Filter

variable {σ : Type} {f : Filter σ} {id : MeterId} {s s' : σ} {initial : DistributionConfig}
  {p : Panic} {w : World σ} {reply : Reply} {events : List Event} {asked : List Call}

theorem exchanges_cons_of {request : Request} (leaves : (f.exchange request s).2 = s')
    (later : List Request) :
    f.exchanges (request :: later) s = f.exchange request s :: f.exchanges later s' := by
  rw [exchanges, leaves]

theorem exchange_register_of_error (failed : f.register id initial (.fresh s) = .error p w) :
    f.exchange (.register id initial) s = (⟨.panic p, w.events, w.calls⟩, w.state) := by
  simp only [exchange, respond_register, failed]

theorem accept_of_exchange
    (answered : f.exchange (.accept id) s = (⟨.reply reply, events, asked⟩, s')) :
    f.accept id (.fresh s) = .ok reply ⟨s', events, asked⟩ := by
  simp only [exchange, respond_accept] at answered
  cases ran : f.accept id (.fresh s) with
  | ok r w =>
      rw [ran] at answered
      cases answered
      rfl
  | error q w =>
      rw [ran] at answered
      cases answered

theorem accept_error_of_exchange
    (failed : f.exchange (.accept id) s = (⟨.panic p, events, asked⟩, s')) :
    f.accept id (.fresh s) = .error p ⟨s', events, asked⟩ := by
  simp only [exchange, respond_accept] at failed
  cases ran : f.accept id (.fresh s) with
  | ok r w =>
      rw [ran] at failed
      cases failed
  | error q w =>
      rw [ran] at failed
      cases failed
      rfl

end Filter

namespace StockFilter

variable {f : StockFilter} {s s' : Store} {id mapped : MeterId} {initial : DistributionConfig}
  {noted asked told : List Call} {events : List Event} {reply : Reply} {p : Panic}

/-- A panic in the mapping pass is the panic of the registration, and nothing else has happened. -/
theorem exchange_of_map_panic (fails : Step.run .map f.mapSteps id = (noted, .error p))
    (initial : DistributionConfig) :
    f.toFilter.exchange (.register id initial) s = (⟨.panic p, [], noted⟩, s) ∧
      f.toFilter.exchange (.map id) s = (⟨.panic p, [], noted⟩, s) := by
  have mapping : f.toFilter.map id (.fresh s) = .error p ⟨s, [], noted⟩ := by
    rw [map_eq_steps, Step.toEval, fails]
    rfl
  constructor
  · refine Filter.exchange_register_of_error (w := ⟨s, [], noted⟩) ?_
    rw [Filter.register, Eval.bind_apply, mapping]
  · simp only [Filter.exchange, Filter.respond, Filter.ask, Eval.bind_apply, mapping]

theorem register_of_mapped (maps : Step.run .map f.mapSteps id = (noted, .ok mapped))
    (initial : DistributionConfig) :
    f.toFilter.register id initial (.fresh s) =
      (do
        let reply ← f.toFilter.accept mapped
        let config ← f.toFilter.configureIfUsed mapped initial
        Eval.log (.ofVerdict mapped reply)
        pure (⟨mapped, reply, config⟩ : Registration)) ((World.fresh s).behind ⟨s, [], noted⟩) := by
  have mapping : f.toFilter.map id (.fresh s) =
      .ok mapped ((World.fresh s).behind ⟨s, [], noted⟩) := by
    rw [map_eq_steps, Step.toEval, maps]
    simp [World.fresh, World.behind]
  rw [Filter.register, Eval.bind_apply, mapping]

theorem exchange_of_accept_panic (maps : Step.run .map f.mapSteps id = (noted, .ok mapped))
    (fails : f.toFilter.exchange (.accept mapped) s = (⟨.panic p, events, asked⟩, s')) :
    f.toFilter.exchange (.register id initial) s = (⟨.panic p, events, noted ++ asked⟩, s') := by
  have asking : f.toFilter.accept mapped (.fresh s) = .error p ⟨s', events, asked⟩ :=
    Filter.accept_error_of_exchange fails
  refine Filter.exchange_register_of_error (w := ⟨s', events, noted ++ asked⟩) ?_
  rw [register_of_mapped maps, Eval.bind_apply, f.blind_accept, asking]
  simp [World.behind]

theorem register_of_accepted (maps : Step.run .map f.mapSteps id = (noted, .ok mapped))
    (answered : f.toFilter.exchange (.accept mapped) s = (⟨.reply reply, events, asked⟩, s'))
    (initial : DistributionConfig) :
    f.toFilter.register id initial (.fresh s) =
      (do
        let config ← f.toFilter.configureIfUsed mapped initial
        Eval.log (.ofVerdict mapped reply)
        pure (⟨mapped, reply, config⟩ : Registration)) ⟨s', events, noted ++ asked⟩ := by
  rw [register_of_mapped maps, Eval.bind_apply, f.blind_accept,
    Filter.accept_of_exchange answered]
  simp [World.behind]

/-- A panic in the configuration pass is the panic of the registration, and everything is as the
    question about admission leaves it. -/
theorem exchange_of_configure_panic (maps : Step.run .map f.mapSteps id = (noted, .ok mapped))
    (answered : f.toFilter.exchange (.accept mapped) s = (⟨.reply reply, events, asked⟩, s'))
    (used : mapped.type.usesDistributionConfig = true)
    (fails : Step.run (.configure · mapped ·) (f.configureSteps s' mapped) initial =
      (told, .error p)) :
    f.toFilter.exchange (.register id initial) s =
      (⟨.panic p, events, noted ++ asked ++ told⟩, s') := by
  have configuring : f.toFilter.configure mapped initial ⟨s', events, noted ++ asked⟩ =
      .error p ⟨s', events, noted ++ asked ++ told⟩ := by
    rw [configure_eq_steps, Step.toEval, fails]
  refine Filter.exchange_register_of_error (w := ⟨s', events, noted ++ asked ++ told⟩) ?_
  rw [register_of_accepted maps answered, Eval.bind_apply, Filter.configureIfUsed, if_pos used,
    map_eq_pure_bind, Eval.bind_apply, configuring]

/-- If the settings can be configured, or there are none, a registration comes to its end. -/
theorem exchange_of_configured (maps : Step.run .map f.mapSteps id = (noted, .ok mapped))
    (answered : f.toFilter.exchange (.accept mapped) s = (⟨.reply reply, events, asked⟩, s'))
    (initial : DistributionConfig) (configures : mapped.type.usesDistributionConfig = true →
      ∃ told config, Step.run (.configure · mapped ·) (f.configureSteps s' mapped) initial =
        (told, .ok config)) :
    ∃ r, (f.toFilter.exchange (.register id initial) s).1.response = .registration r := by
  have configuring : ∃ config w, f.toFilter.configureIfUsed mapped initial
      ⟨s', events, noted ++ asked⟩ = .ok config w := by
    rw [Filter.configureIfUsed]
    split
    · next used =>
        obtain ⟨told, config, ran⟩ := configures used
        rw [map_eq_pure_bind, Eval.bind_apply, configure_eq_steps, Step.toEval, ran]
        exact ⟨_, _, rfl⟩
    · exact ⟨_, _, rfl⟩
  obtain ⟨config, w, ran⟩ := configuring
  have registered := register_of_accepted maps answered initial
  rw [Eval.bind_apply, ran] at registered
  simp only [Filter.exchange, Filter.respond_register, registered]
  exact ⟨_, rfl⟩

theorem panic_cases
    (panics : (f.toFilter.exchange (.register id initial) s).1.response = .panic p) :
    (∃ noted, Step.PanicsAfter .map f.mapSteps id noted p) ∨
    (∃ mapped, (f.toFilter.exchange (.accept mapped) s).1.response = .panic p) ∨
    ∃ noted mapped reply events asked s' told,
      Step.run .map f.mapSteps id = (noted, .ok mapped) ∧
      f.toFilter.exchange (.accept mapped) s = (⟨.reply reply, events, asked⟩, s') ∧
      mapped.type.usesDistributionConfig = true ∧
      Step.PanicsAfter (.configure · mapped ·) (f.configureSteps s' mapped) initial told p := by
  rcases maps : Step.run .map f.mapSteps id with ⟨noted, q | mapped⟩
  · rw [(exchange_of_map_panic maps initial).1] at panics
    cases panics
    exact .inl ⟨noted, Step.run_eq_error_iff.1 maps⟩
  · rcases asking : f.toFilter.accept mapped (.fresh s) with ⟨reply, s', events, asked⟩ |
      ⟨q, s', events, asked⟩
    · have answered :
          f.toFilter.exchange (.accept mapped) s = (⟨.reply reply, events, asked⟩, s') := by
        simp only [Filter.exchange, Filter.respond_accept, asking]
      rcases configures : Step.run (fun label config => Call.configure label mapped config)
        (f.configureSteps s' mapped) initial with ⟨told, q | config⟩
      · by_cases used : mapped.type.usesDistributionConfig = true
        · rw [exchange_of_configure_panic maps answered used configures] at panics
          cases panics
          exact .inr (.inr ⟨noted, mapped, reply, events, asked, s', told, rfl, answered, used,
            Step.run_eq_error_iff.1 configures⟩)
        · have ends := exchange_of_configured maps answered initial (fun h => absurd h used)
          cases panics.symm.trans ends.choose_spec
      · have ends := exchange_of_configured maps answered initial
          fun _ => ⟨told, config, configures⟩
        cases panics.symm.trans ends.choose_spec
    · have fails : f.toFilter.exchange (.accept mapped) s = (⟨.panic q, events, asked⟩, s') := by
        simp only [Filter.exchange, Filter.respond_accept, asking]
      rw [exchange_of_accept_panic maps fails] at panics
      cases panics
      exact .inr (.inl ⟨mapped, by rw [fails]⟩)

/-! ## Admission without panics -/

mutual

/-- No closure that a filter asks about admission ever panics. -/
def Answers : StockFilter → Prop
  | byPredicate predicate _ _ => ∀ id, ∃ holds, predicate id = .ok holds
  | acceptClosure f => ∀ id, ∃ reply, f id = .ok reply
  | tagCap _ _ overflow => overflow.Answers
  | boxed inner => inner.Answers
  | chain filters => AllAnswer filters
  | watched _ inner => inner.Answers
  | _ => True

/-- No closure that some filters ask about admission ever panics. -/
def AllAnswer : List StockFilter → Prop
  | [] => True
  | f :: rest => f.Answers ∧ AllAnswer rest

end

theorem allAnswer_iff (filters : List StockFilter) :
    AllAnswer filters ↔ ∀ f ∈ filters, f.Answers := by
  induction filters with
  | nil => simp [AllAnswer]
  | cons f rest ih => rw [AllAnswer, ih, List.forall_mem_cons]

theorem returns_accept {f : StockFilter} (calm : f.Answers) (id : MeterId) :
    (f.toFilter.accept id).Returns := by
  induction f using induction with
  | byPredicate predicate onMatch otherwise =>
      obtain ⟨holds, answered⟩ := calm id
      exact .ofClosure ⟨_, congrArg (Except.map _) answered⟩
  | acceptClosure f => exact .ofClosure (calm id)
  | metricCap place max => exact MetricCap.accept_of .returns (.read _) (.write _) max id
  | tagCap place limit overflow ih =>
      exact TagCap.accept_of .returns (.read _) (.write _) limit (ih calm)
  | boxed inner ih => exact ih calm
  | chain filters ih =>
      rw [toFilter_chain]
      refine Chain.accept_of .returns fun f' hf' => ?_
      obtain ⟨f, hf, rfl⟩ := List.mem_map.1 hf'
      exact ih f hf ((allAnswer_iff filters).1 calm f hf)
  | watched label inner ih => exact (Eval.Returns.watch _).bind fun _ => ih calm
  | _ => exact .pure _

/-! ## What a panic leaves behind -/

/-- **A panic leaves nothing half done.** Let a meter be registered with a chain, however it is
    nested, in any memory. If a step of the mapping pass panics, the registration panics with the
    first one that does, and this is all: it is what the mapping pass alone would have given, no
    limiter has changed and nothing has been reported. If all of them return and a step of the
    configuration pass panics, the registration panics with the first one that does; the limiters
    and what was reported are as the question about the mapped id alone would have left them, and
    the verdict is not reported. Whatever is asked afterwards is answered as it would have been in
    that memory without the panic. And if the closures that are asked about admission do not panic,
    there are no other panics. -/
theorem panic_of_register (filters : List StockFilter) (s : Store) (id : MeterId)
    (initial : DistributionConfig) :
    let chain := Chain.toFilter (toChain filters)
    let registered := chain.exchange (.register id initial) s
    (∀ noted p, Step.PanicsAfter .map (mapStepsOfAll filters) id noted p →
      registered = (⟨.panic p, [], noted⟩, s) ∧
      registered = chain.exchange (.map id) s ∧
      ∀ later, chain.exchanges (.register id initial :: later) s =
        registered :: chain.exchanges later s) ∧
    (∀ noted mapped reply events asked s' told p,
      Step.run .map (mapStepsOfAll filters) id = (noted, .ok mapped) →
      chain.exchange (.accept mapped) s = (⟨.reply reply, events, asked⟩, s') →
      mapped.type.usesDistributionConfig = true →
      Step.PanicsAfter (.configure · mapped ·) (configureStepsOfAll s' mapped filters) initial told
        p →
      registered = (⟨.panic p, events, noted ++ asked ++ told⟩, s') ∧
      ∀ later, chain.exchanges (.register id initial :: later) s =
        registered :: (chain.exchanges (.accept mapped :: later) s).tail) ∧
    ∀ p, registered.1.response = .panic p → AllAnswer filters →
      (∃ noted, Step.PanicsAfter .map (mapStepsOfAll filters) id noted p) ∨
      ∃ noted mapped reply events asked s' told,
        Step.run .map (mapStepsOfAll filters) id = (noted, .ok mapped) ∧
        chain.exchange (.accept mapped) s = (⟨.reply reply, events, asked⟩, s') ∧
        mapped.type.usesDistributionConfig = true ∧
        Step.PanicsAfter (.configure · mapped ·) (configureStepsOfAll s' mapped filters) initial
          told p := by
  intro chain registered
  refine ⟨fun noted p panics => ?_, ?_, fun p panics calm => ?_⟩
  · obtain ⟨ends, same⟩ := exchange_of_map_panic (f := .chain filters) (s := s)
      (Step.run_eq_error_iff.2 panics) initial
    exact ⟨ends, ends.trans same.symm, Filter.exchanges_cons_of (congrArg Prod.snd ends)⟩
  · intro noted mapped reply events asked s' told p maps answered used panics
    have ends : registered = (⟨.panic p, events, noted ++ asked ++ told⟩, s') :=
      exchange_of_configure_panic (f := .chain filters) maps answered used
        (Step.run_eq_error_iff.2 panics)
    refine ⟨ends, fun later => ?_⟩
    rw [Filter.exchanges_cons_of (congrArg Prod.snd ends),
      Filter.exchanges_cons_of (congrArg Prod.snd answered), List.tail_cons]
  · rcases panic_cases (f := .chain filters) panics with first | ⟨mapped, fails⟩ | last
    · exact .inl first
    · obtain ⟨reply, answered⟩ := returns_accept (f := .chain filters) calm mapped (.fresh s)
      obtain ⟨w, ran⟩ := Eval.ok_of_outcome answered
      simp only [Filter.exchange, Filter.respond_accept, ran] at fails
      cases fails
    · exact .inr last

/-- A closure does not map a name, and the overflow filter of a nested tag cap does not configure.
    The first panic leaves no trace. The second one comes after the cap was brought over its limit:
    the value and the warning stay, the filter behind is no longer configured, and the next
    registration panics without a warning. -/
theorem panic_of_register_overflow :
    let picky : StockFilter :=
      .mapClosure fun id => if id.name = "" then .error ⟨"no name"⟩ else .ok id
    let cap : StockFilter :=
      .tagCap 0 ⟨"db.calls", "table", 0⟩ (.configureClosure fun _ _ => .error ⟨"no room"⟩)
    let filters : List StockFilter :=
      [.watched "first" (.metricCap 0 5), picky, .chain [.boxed cap], .watched "last" .passThrough]
    let chain := Chain.toFilter (toChain filters)
    let nameless : MeterId := ⟨"", .timer, [], none, none⟩
    let users : MeterId := ⟨"db.calls", .timer, [⟨"table", "users"⟩], none, none⟩
    AllAnswer filters ∧
    chain.exchange (.register nameless .none) {} =
      (⟨.panic ⟨"no name"⟩, [], [.map "first" nameless]⟩, {}) ∧
    (chain.exchange (.register users .none) {}).1 = ⟨.panic ⟨"no room"⟩,
      [.tagCapTripped "db.calls" "table" 0],
      [.map "first" users, .map "last" users, .accept "first" users, .accept "last" users,
        .configure "first" users .none]⟩ ∧
    (chain.exchange (.register users .none) {}).2 = (chain.exchange (.accept users) {}).2 ∧
    (chain.exchanges [.register users .none, .register users .none] {}).map (·.1.events) =
      [[.tagCapTripped "db.calls" "table" 0], []] ∧
    ((∃ noted, Step.PanicsAfter .map (mapStepsOfAll filters) users noted ⟨"no room"⟩) ∨
      ∃ noted mapped reply events asked s' told,
        Step.run .map (mapStepsOfAll filters) users = (noted, .ok mapped) ∧
        chain.exchange (.accept mapped) {} = (⟨.reply reply, events, asked⟩, s') ∧
        mapped.type.usesDistributionConfig = true ∧
        Step.PanicsAfter (.configure · mapped ·) (configureStepsOfAll s' mapped filters) .none told
          ⟨"no room"⟩) := by
  intro picky cap filters chain nameless users
  have calm : AllAnswer filters := ⟨trivial, trivial, ⟨trivial, trivial⟩, trivial, trivial⟩
  obtain ⟨early, -, -⟩ := panic_of_register filters {} nameless .none
  obtain ⟨-, late, only⟩ := panic_of_register filters {} users .none
  obtain ⟨unmapped, -, -⟩ := early [.map "first" nameless] ⟨"no name"⟩
    (Step.run_eq_error_iff.1 rfl)
  obtain ⟨ends, goes⟩ := late _ users .neutral [.tagCapTripped "db.calls" "table" 0] _ _ _
    ⟨"no room"⟩ rfl rfl rfl (Step.run_eq_error_iff.1 rfl)
  refine ⟨calm, unmapped, ?_, ?_, ?_, only ⟨"no room"⟩ (by rw [ends]) calm⟩
  · rw [ends]
    rfl
  · rw [ends]
    rfl
  · rw [goes]
    decide +kernel

end StockFilter

end MeterGate
