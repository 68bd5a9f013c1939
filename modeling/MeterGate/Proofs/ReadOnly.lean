import MeterGate.Proofs.Holdings
import MeterGate.Proofs.Place
import Mathlib.Order.RelClasses

set_option autoImplicit false

/-! # Passes that only read

Of the three operations of a stock filter only admission changes what is remembered. Mapping does
not look at the memory at all, and configuration looks at the records of tag caps, to find out
whether they are over their limits, and does no more than that: both leave the memory as they find
it and report nothing (`StockFilter.onlyReads_map`, `StockFilter.onlyReads_configure`), through
boxes, nested chains and overflow filters, and also when a closure panics.

So requests that only map or configure can be put in anywhere between the requests of a run, to
whatever filters over the same memory, and the run does not notice
(`StockFilter.exchanges_without_readings`). -/

namespace MeterGate

/-! ## Computations that only read -/

namespace Eval

variable {σ α β : Type}

/-- From any world a computation leaves the memory as it is, and reports nothing. -/
def OnlyReads (x : Eval σ α) : Prop :=
  ∀ w, (x.worldAfter w).state = w.state ∧ (x.worldAfter w).events = w.events

namespace OnlyReads

theorem pure (a : α) : OnlyReads (pure a : Eval σ α) := fun _ => ⟨rfl, rfl⟩

theorem watch (c : Call) : OnlyReads (watch c : Eval σ Unit) := fun _ => ⟨rfl, rfl⟩

theorem read (c : Cell σ α) : OnlyReads (read c) := fun _ => ⟨rfl, rfl⟩

theorem ofClosure (answer : Except Panic α) : OnlyReads (ofClosure answer : Eval σ α) := by
  cases answer <;> exact fun _ => ⟨rfl, rfl⟩

theorem bind {x : Eval σ α} {f : α → Eval σ β} (hx : OnlyReads x) (hf : ∀ a, OnlyReads (f a)) :
    OnlyReads (x >>= f) := by
  intro w
  rw [worldAfter_bind_outcome]
  -- after a panic nothing comes any more
  cases x.outcome w with
  | ok a =>
      obtain ⟨state, events⟩ := hf a (x.worldAfter w)
      exact ⟨state.trans (hx w).1, events.trans (hx w).2⟩
  | error p => exact hx w

theorem moves {x : Eval σ α} (h : OnlyReads x) : x.Moves Eq := fun w => (h w).1.symm

end OnlyReads

end Eval

namespace Chain

variable {σ : Type} {chain : Chain σ}

theorem onlyReads_map (h : ∀ f ∈ chain, ∀ id, (f.map id).OnlyReads) (id : MeterId) :
    (map chain id).OnlyReads := by
  induction chain generalizing id with
  | nil => exact .pure id
  | cons f rest ih =>
      obtain ⟨hf, hrest⟩ := List.forall_mem_cons.1 h
      exact .bind (hf id) (ih hrest)

theorem onlyReads_configure {id : MeterId}
    (h : ∀ f ∈ chain, ∀ config, (f.configure id config).OnlyReads) (config : DistributionConfig) :
    (configure chain id config).OnlyReads := by
  induction chain generalizing config with
  | nil => exact .pure config
  | cons f rest ih =>
      obtain ⟨hf, hrest⟩ := List.forall_mem_cons.1 h
      exact .bind (hf config) (ih hrest)

end Chain

/-- A tag cap looks at its record, and leaves the settings to its overflow filter or alone. -/
theorem TagCap.onlyReads_configure {σ : Type} {cell : Cell σ TagCap.Record} {limit : TagCap.Limit}
    {overflow : Filter σ} {id : MeterId} {config : DistributionConfig}
    (h : (overflow.configure id config).OnlyReads) :
    (TagCap.configure cell limit overflow id config).OnlyReads := by
  refine (Eval.OnlyReads.read cell).bind fun record => ?_
  split
  · exact h
  · exact .pure _

/-! ## Stock filters -/

namespace StockFilter

/-- Mapping leaves the memory as it is, and reports nothing. -/
theorem onlyReads_map (f : StockFilter) (id : MeterId) : (f.toFilter.map id).OnlyReads := by
  induction f using induction generalizing id with
  | replaceTagValues | mapClosure => exact .ofClosure _
  | boxed inner ih => exact ih id
  | chain filters ih =>
      rw [toFilter_chain]
      refine Chain.onlyReads_map (fun f' hf' => ?_) id
      obtain ⟨f, hf, rfl⟩ := List.mem_map.1 hf'
      exact ih f hf
  | watched label inner ih => exact (Eval.OnlyReads.watch _).bind fun _ => ih id
  | _ => exact .pure _

theorem onlyReads_configure (f : StockFilter) (id : MeterId) (config : DistributionConfig) :
    (f.toFilter.configure id config).OnlyReads := by
  induction f using induction generalizing config with
  | configureClosure => exact .ofClosure _
  | tagCap place limit overflow ih => exact TagCap.onlyReads_configure (ih config)
  | boxed inner ih => exact ih config
  | chain filters ih =>
      rw [toFilter_chain]
      refine Chain.onlyReads_configure (fun f' hf' => ?_) config
      obtain ⟨f, hf, rfl⟩ := List.mem_map.1 hf'
      exact ih f hf
  | watched label inner ih => exact (Eval.OnlyReads.watch _).bind fun _ => ih config
  | _ => exact .pure _

theorem moves_map (f : StockFilter) (id : MeterId) : (f.toFilter.map id).Moves Eq :=
  (f.onlyReads_map id).moves

theorem moves_configure (f : StockFilter) (id : MeterId) (config : DistributionConfig) :
    (f.toFilter.configure id config).Moves Eq :=
  (f.onlyReads_configure id config).moves

end StockFilter

/-! ## Requests that only read -/

/-- Whether a request is for one of the passes that only read. -/
def Request.onlyReads : Request → Bool
  | .map _ | .configure _ _ => true
  | .register _ _ | .accept _ => false

namespace StockFilter

theorem onlyReads_ask (f : StockFilter) {request : Request} (reading : request.onlyReads = true) :
    (f.toFilter.ask request).OnlyReads := by
  cases request with
  | map id => exact (f.onlyReads_map id).bind fun _ => .pure _
  | configure id config => exact (f.onlyReads_configure id config).bind fun _ => .pure _
  | register | accept => cases reading

/-- A request that only reads leaves the memory as it is, and nothing is reported. -/
theorem exchange_of_onlyReads (f : StockFilter) {request : Request}
    (reading : request.onlyReads = true) (s : Store) :
    (f.toFilter.exchange request s).2 = s ∧ (f.toFilter.exchange request s).1.events = [] := by
  obtain ⟨state, events⟩ := f.onlyReads_ask reading (.fresh s)
  rw [← Filter.respond_snd] at state events
  exact ⟨state, events⟩

/-- A request to one of several filters over the same memory. -/
structure Asking where
  target : StockFilter
  request : Request

/-- The exchanges of requests to filters over one memory, made one after another, each with its
    request and with the memory after it. -/
def exchanges : List Asking → Store → List (Asking × Exchange × Store)
  | [], _ => []
  | asking :: rest, s =>
      let answered := asking.target.toFilter.exchange asking.request s
      (asking, answered) :: exchanges rest answered.2

/-- The requests of a list that do not only read. -/
def withoutReadings (askings : List Asking) : List Asking :=
  askings.filter fun asking => !asking.request.onlyReads

theorem map_snd_exchanges (f : StockFilter) (calls : List Request) (s : Store) :
    (exchanges (calls.map fun call => ⟨f, call⟩) s).map Prod.snd
      = f.toFilter.exchanges calls s := by
  induction calls generalizing s with
  | nil => rfl
  | cons call rest ih =>
      simp only [List.map_cons, exchanges, Filter.exchanges, ih]

/-- The exchanges of the other requests are what they would be without those that only read. -/
theorem filter_exchanges (askings : List Asking) (s : Store) :
    (exchanges askings s).filter (fun entry => !entry.1.request.onlyReads)
      = exchanges (withoutReadings askings) s := by
  induction askings generalizing s with
  | nil => rfl
  | cons asking rest ih =>
      cases reading : asking.request.onlyReads with
      | true =>
          -- the memory that the rest of the requests find is that before the reading
          obtain ⟨same, -⟩ := asking.target.exchange_of_onlyReads reading s
          simp only [exchanges, same]
          rw [List.filter_cons_of_neg (by simp [reading]), ih, withoutReadings, withoutReadings,
            List.filter_cons_of_neg (by simp [reading])]
      | false =>
          simp only [exchanges]
          rw [List.filter_cons_of_pos (by simp [reading]), ih, withoutReadings, withoutReadings,
            List.filter_cons_of_pos (by simp [reading]), exchanges]

theorem events_of_mem_exchanges {askings : List Asking} {s : Store}
    {entry : Asking × Exchange × Store} (listed : entry ∈ exchanges askings s)
    (reading : entry.1.request.onlyReads = true) : entry.2.1.events = [] := by
  induction askings generalizing s with
  | nil => cases listed
  | cons asking rest ih =>
      rcases List.mem_cons.1 listed with rfl | later
      · exact (asking.target.exchange_of_onlyReads reading s).2
      · exact ih later

/-- **Mapping and configuration only read.** Requests are put to filters over one memory: to a
    chain, however it is nested, to the filters in it, those behind tag caps included, and to any
    others. Each registration and each question about admission has the same response, with the same
    events and the same memory of all limiters after it, as if the requests that only map or
    configure had been left out, and these report nothing. So if all others are put to one chain,
    they are a run of this chain alone. -/
theorem exchanges_without_readings (askings : List Asking) (s : Store) :
    (exchanges askings s).filter (fun entry => !entry.1.request.onlyReads)
        = exchanges (withoutReadings askings) s ∧
      (∀ entry ∈ exchanges askings s, entry.1.request.onlyReads = true →
        entry.2.1.events = []) ∧
      ∀ (filters : List StockFilter) (calls : List Request),
        withoutReadings askings = calls.map (fun call => ⟨chain filters, call⟩) →
        ((exchanges askings s).filter fun entry => !entry.1.request.onlyReads).map Prod.snd
          = (Chain.toFilter (toChain filters)).exchanges calls s := by
  refine ⟨filter_exchanges askings s, fun entry listed reading => ?_, ?_⟩
  · exact events_of_mem_exchanges listed reading
  · intro filters calls own
    rw [filter_exchanges, own, map_snd_exchanges]
    rfl

/-- A tag cap lays a bound over settings once it is over its limit. Before and after that, the
    chain, the cap and the bound are asked to map and to configure, and the run of the chain stays
    what it is. -/
theorem exchanges_without_readings_bounded :
    let bound : StockFilter := .expectedBound "db" .timer { bufferLength := some 3 }
    let cap : StockFilter := .tagCap 0 ⟨"db.calls", "table", 1⟩ bound
    let users : MeterId := ⟨"db.calls", .timer, [⟨"table", "users"⟩], none, none⟩
    let orders : MeterId := ⟨"db.calls", .timer, [⟨"table", "orders"⟩], none, none⟩
    let calls : List Request := [.register users .none, .register orders .none, .accept users]
    let askings : List Asking :=
      [⟨chain [cap], .configure orders .none⟩, ⟨chain [cap], .register users .none⟩,
        ⟨chain [cap], .map orders⟩, ⟨chain [cap], .register orders .none⟩,
        ⟨cap, .configure users .none⟩, ⟨bound, .map users⟩, ⟨chain [cap], .accept users⟩]
    withoutReadings askings = calls.map (fun call => ⟨chain [cap], call⟩) ∧
    ((exchanges askings {}).filter fun entry => !entry.1.request.onlyReads).map Prod.snd
      = (Chain.toFilter (toChain [cap])).exchanges calls {} ∧
    ((Chain.toFilter (toChain [cap])).exchanges calls {}).map (·.1.response)
      = [.registration ⟨users, .neutral, some .none⟩,
        .registration ⟨orders, .neutral, some { bufferLength := some 3 }⟩, .reply .neutral] := by
  intro bound cap users orders calls askings
  obtain ⟨-, -, one⟩ := exchanges_without_readings askings {}
  exact ⟨rfl, one [cap] calls rfl, by decide +kernel⟩

end StockFilter

end MeterGate
