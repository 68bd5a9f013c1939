import MeterGate.Proofs.MetricCap
import MeterGate.Proofs.TagCap

set_option autoImplicit false

/-! # Cost control

A limiter in a chain bounds what the chain lets through, apart from what the filters before it have
decided about already. The other filters may do as they like, share the limiter and panic, as long
as they take nothing out of its record (`Retains`): the record is the limiter's own, and the most
that others can do is to ask the limiter once more. No stock filter takes anything out of a record
(`StockFilter.retains_seen`, `StockFilter.retains_values`).

A *gate* (`Filter.Gates`) lets an id pass only if it then knows the id's value, and knows no more
values than allowed. What it knows it never forgets, so all that ever passed is known when the next
id passes (`Chain.card_admittedPast_le`). Both limiters are gates, and so `Chain.cost_control`
bounds the series, or the values of a tag, that a chain lets through. -/

namespace MeterGate

/-! ## Ids that are let through -/

namespace Chain

variable {σ : Type}

/-- The mapped id of a registration with the chain `before ++ rest`, if it comes back enabled and
    the filters of `before` had no opinion about it. -/
def admittedPast? (before rest : Chain σ) (w : World σ) : Request → Option MeterId
  | .register id config =>
      match (map (before ++ rest) id >>= accept before).outcome w,
          (register (before ++ rest) id config).outcome w with
      | .ok .neutral, .ok r => if r.isEnabled then some r.id else none
      | _, _ => none
  | .map _ | .accept _ | .configure _ _ => none

/-- The mapped ids that come back enabled in a run of requests to the chain `before ++ rest`, but
    for those that the filters of `before` had an opinion about. -/
def admittedPast (before rest : Chain σ) : List Request → World σ → List MeterId
  | [], _ => []
  | request :: requests, w =>
      (admittedPast? before rest w request).toList
        ++ admittedPast before rest requests ((toFilter (before ++ rest)).respond request w).2

/-- An id that is let through was registered, and so it was mapped, left undecided by the filters
    before, and then not denied. -/
theorem register_of_admittedPast? {before rest : Chain σ} {w : World σ} {request : Request}
    {id : MeterId} (admitted : admittedPast? before rest w request = some id) :
    ∃ id₀ config r w₀ w', request = .register id₀ config ∧
      (map (before ++ rest) id₀ >>= accept before) w = .ok .neutral w₀ ∧
      (toFilter (before ++ rest)).register id₀ config w = .ok r w' ∧
      r.id = id ∧ r.reply ≠ .deny := by
  cases request with
  | register id₀ config =>
      simp only [admittedPast?] at admitted
      split at admitted
      · next r undecided registered =>
          obtain ⟨w₀, asked⟩ := Eval.ok_of_outcome undecided
          obtain ⟨w', ran⟩ := Eval.ok_of_outcome registered
          simp only [Registration.isEnabled, decide_not, Bool.not_eq_true', decide_eq_false_iff_not,
            Option.ite_none_right_eq_some, Option.some.injEq] at admitted
          exact ⟨id₀, config, r, w₀, w', rfl, asked, ran, admitted.2, admitted.1⟩
      · cases admitted
  | map | accept | configure => cases admitted

theorem admittedPast_concat (before rest : Chain σ) (requests : List Request) (request : Request)
    (w : World σ) :
    admittedPast before rest (requests ++ [request]) w
      = admittedPast before rest requests w
        ++ (admittedPast? before rest ((toFilter (before ++ rest)).after requests w)
            request).toList := by
  induction requests generalizing w with
  | nil => simp [admittedPast]
  | cons first requests ih =>
      simp only [List.cons_append, admittedPast, ih, List.append_assoc, Filter.after_cons]

end Chain

/-! ## Steps of a registration that gave a result -/

section

variable {σ : Type} {R : σ → σ → Prop} [IsPreorder σ R]

theorem Filter.ok_of_register {f : Filter σ} (moves : f.Moves R) {id : MeterId}
    {config : DistributionConfig} {w w' : World σ} {r : Registration}
    (ran : f.register id config w = .ok r w') :
    ∃ w₁ w₂, f.map id w = .ok r.id w₁ ∧ f.accept r.id w₁ = .ok r.reply w₂
      ∧ R w₂.state w'.state := by
  obtain ⟨mapped, w₁, map, ran⟩ := Eval.ok_of_bind_ok ran
  obtain ⟨reply, w₂, accept, ran⟩ := Eval.ok_of_bind_ok ran
  obtain ⟨configured, w₃, configure, ran⟩ := Eval.ok_of_bind_ok ran
  cases ran
  refine ⟨w₁, w₂, map, accept, ?_⟩
  have settings : (f.configureIfUsed mapped config).Moves R := by
    unfold configureIfUsed
    split
    · exact (moves.configure mapped config).bind fun _ => .pure _
    · exact .pure _
  show R w₂.state w₃.state
  exact settings.of_ok configure

namespace Chain

/-- An id that the filters before the others are neutral on and that is not denied was put to the
    first of these others, which did not deny it. -/
theorem accept_passed {before after : Chain σ} {gate : Filter σ} (moves : ∀ f ∈ after, f.Moves R)
    {id : MeterId} {w w₁ w' : World σ} {reply : Reply}
    (undecided : accept before id w = .ok .neutral w₁)
    (ran : accept (before ++ gate :: after) id w = .ok reply w') (enabled : reply ≠ .deny) :
    ∃ first w₂, gate.accept id w₁ = .ok first w₂ ∧ first ≠ .deny ∧ R w₂.state w'.state := by
  rw [accept_append, Eval.bind_apply, undecided] at ran
  obtain ⟨first, w₂, asked, ran⟩ := Eval.ok_of_bind_ok (x := gate.accept id) ran
  refine ⟨first, w₂, asked, ?_⟩
  cases first with
  | neutral =>
      have rest : (accept after id).Moves R :=
        accept_of (.moves R) fun f hf => (moves f hf).accept id
      exact ⟨by decide, rest.of_ok ran⟩
  | accept =>
      cases ran
      exact ⟨by decide, refl_of R _⟩
  | deny =>
      cases ran
      exact absurd rfl enabled

theorem moves_insert {before after : Chain σ} {gate : Filter σ} (hgate : gate.Moves R)
    (moves : ∀ f ∈ before ++ after, f.Moves R) :
    (toFilter (before ++ gate :: after)).Moves R := by
  refine Chain.moves fun f hf => ?_
  rcases List.mem_append.1 hf with hf | hf
  · exact moves f (List.mem_append_left _ hf)
  · rcases List.mem_cons.1 hf with rfl | hf
    · exact hgate
    · exact moves f (List.mem_append_right _ hf)

/-- The gate of a chain was asked about every id that was let through past the filters before it,
    and did not deny it; before that and after it the registration only led along the relation. -/
theorem asked_of_admittedPast {before after : Chain σ} {gate : Filter σ} (hgate : gate.Moves R)
    (moves : ∀ f ∈ before ++ after, f.Moves R) {request : Request} {w : World σ} {id : MeterId}
    (admitted : admittedPast? before (gate :: after) w request = some id) :
    ∃ w₁ reply w₂, R w.state w₁.state ∧ gate.accept id w₁ = .ok reply w₂ ∧ reply ≠ .deny ∧
      R w₂.state ((toFilter (before ++ gate :: after)).respond request w).2.state := by
  have all := moves_insert hgate moves
  have first : (toFilter before).Moves R :=
    Chain.moves fun f hf => moves f (List.mem_append_left _ hf)
  obtain ⟨id₀, config, r, w₀, w', rfl, undecided, registered, rfl, enabled⟩ :=
    register_of_admittedPast? admitted
  obtain ⟨w₁, w₂, map, accept, later⟩ := Filter.ok_of_register all registered
  obtain ⟨mapped, w₁', map', neutral⟩ := Eval.ok_of_bind_ok undecided
  -- the filters before were asked about the id as the whole chain maps it
  obtain ⟨rfl, rfl⟩ : r.id = mapped ∧ w₁ = w₁' := by
    cases map.symm.trans map'
    exact ⟨rfl, rfl⟩
  obtain ⟨reply, w₃, passed, allowed, rest⟩ :=
    accept_passed (fun f hf => moves f (List.mem_append_right _ hf)) neutral accept enabled
  have told := (toFilter (before ++ gate :: after)).respond_register id₀ config w
  rw [registered] at told
  refine ⟨w₀, reply, w₃, ?_, passed, allowed, ?_⟩
  · exact trans_of R ((all.map id₀).of_ok map) ((first.accept r.id).of_ok neutral)
  · rw [told]
    exact trans_of R rest later

end Chain

end

/-! ## Gates -/

/-- What is known in the first memory is known in the second. -/
def Retains {σ α : Type} (known : σ → List α) (s t : σ) : Prop := known s ⊆ known t

instance {σ α : Type} (known : σ → List α) : IsPreorder σ (Retains known) where
  refl s := List.Subset.refl (known s)
  trans _ _ _ := List.Subset.trans

/-- A filter that forgets nothing of what it knows, and that denies an id of some value unless, when
    it answers, it knows this value and no more than `max` in all. -/
structure Filter.Gates {σ α : Type} (known : σ → List α) (value? : MeterId → Option α) (max : Nat)
    (f : Filter σ) : Prop where
  retains : f.Moves (Retains known)
  counts : ∀ {id v w reply w'}, value? id = some v → f.accept id w = .ok reply w' → reply ≠ .deny →
    v ∈ known w'.state ∧ (known w'.state).length ≤ max

namespace Chain

variable {σ α : Type} {known : σ → List α} {value? : MeterId → Option α} {max : Nat}
  {gate : Filter σ} {before after : Chain σ}

/-- When an id is let through, there is a moment at which the gate knows its value and no more
    values than allowed. -/
theorem exists_room (gates : gate.Gates known value? max)
    (retain : ∀ f ∈ before ++ after, f.Moves (Retains known)) {request : Request} {w : World σ}
    {id : MeterId} {v : α} (admitted : admittedPast? before (gate :: after) w request = some id)
    (value : value? id = some v) :
    ∃ s, Retains known w.state s ∧ v ∈ known s ∧ (known s).length ≤ max ∧
      Retains known s ((toFilter (before ++ gate :: after)).respond request w).2.state := by
  obtain ⟨w₁, reply, w₂, earlier, asked, allowed, later⟩ :=
    asked_of_admittedPast gates.retains retain admitted
  obtain ⟨knows, room⟩ := gates.counts value asked allowed
  have within : Retains known w₁.state w₂.state := (gates.retains.accept id).of_ok asked
  exact ⟨w₂.state, trans_of _ earlier within, knows, room, later⟩

/-- What a gate lets through in a run it knows at the end, and it was never too much. -/
theorem card_admittedPast_le [DecidableEq α] (gates : gate.Gates known value? max)
    (retain : ∀ f ∈ before ++ after, f.Moves (Retains known)) (requests : List Request)
    (w : World σ) :
    let values := (admittedPast before (gate :: after) requests w).filterMap value?
    values ⊆ known ((toFilter (before ++ gate :: after)).after requests w).state
      ∧ values.toFinset.card ≤ max := by
  induction requests using List.reverseRecOn with
  | nil => simp [admittedPast]
  | append_singleton requests request ih =>
      obtain ⟨still, few⟩ := ih
      have kept := (moves_insert gates.retains retain).respond request
        ((toFilter (before ++ gate :: after)).after requests w)
      rw [admittedPast_concat, List.filterMap_append, Filter.after_concat]
      cases admitted : admittedPast? before (gate :: after)
          ((toFilter (before ++ gate :: after)).after requests w) request with
      | none => simpa using ⟨List.Subset.trans still kept, few⟩
      | some id =>
          cases value : value? id with
          | none => simpa [value] using ⟨List.Subset.trans still kept, few⟩
          | some v =>
              obtain ⟨s, earlier, knows, room, later⟩ := exists_room gates retain admitted value
              -- at that moment everything that passed is known, this value included
              have known_all : ((admittedPast before (gate :: after) requests w).filterMap value?
                  ++ (some id).toList.filterMap value?) ⊆ known s := by
                refine List.append_subset.2 ⟨List.Subset.trans still earlier, ?_⟩
                simpa [value] using knows
              refine ⟨List.Subset.trans known_all later, ?_⟩
              calc _ ≤ (known s).toFinset.card :=
                    Finset.card_le_card fun v hv =>
                      List.mem_toFinset.2 (known_all (List.mem_toFinset.1 hv))
                _ ≤ (known s).length := List.toFinset_card_le _
                _ ≤ max := room

end Chain

/-! ## The limiters as gates -/

namespace MetricCap

theorem Record.seen_subset_offer (max : Nat) (s : Series) (r : Record) :
    r.seen ⊆ (r.offer max s).seen := by
  show r.seen ⊆ (r.insert max s).seen
  unfold insert
  split
  · exact List.Subset.refl _
  · exact List.subset_append_left _ _

theorem Record.mem_offer {max : Nat} {s : Series} {r : Record}
    (h : (r.offer max s).isOver max = false) : s ∈ (r.offer max s).seen := by
  rw [isOver_offer] at h
  show s ∈ (r.insert max s).seen
  unfold insert at h ⊢
  split
  · next known =>
      rw [if_pos known] at h
      simpa [h] using known
  · simp

variable {σ : Type}

/-- A metric cap lets a series pass only if it then has it on record and is not over its limit. -/
theorem gates (cell : Cell σ Record) (max : Nat) :
    (Filter.metricCap cell max).Gates (fun s => (cell.get s).seen) (fun id => some id.series)
      max where
  retains := .metricCap fun id s => by
    unfold Retains
    simpa [Cell.get_put] using Record.seen_subset_offer max id.series (cell.get s)
  counts := by
    intro id v w reply w' value asked allowed
    cases value
    have ran : accept cell max id w = .ok reply w' := asked
    rw [accept_apply] at ran
    by_cases exceeds : ((cell.get w.state).offer max id.series).isOver max = true
    · simp only [exceeds, if_true] at ran
      cases ran
      exact absurd rfl allowed
    · simp only [exceeds] at ran
      cases ran
      have room := Bool.eq_false_iff.2 exceeds
      rw [World.get_put]
      exact ⟨Record.mem_offer room, by simpa [Record.isOver] using room⟩

end MetricCap

namespace TagCap

theorem Record.values_subset_offer (max : Nat) (v : String) (r : Record) :
    r.values ⊆ (r.offer max v).values := fun _ h => mem_insertValue.2 (.inr h)

theorem Record.mem_offer (max : Nat) (v : String) (r : Record) : v ∈ (r.offer max v).values :=
  mem_insertValue.2 (.inl rfl)

variable {σ : Type}

/-- A tag cap whose overflow filter answers nothing but a denial lets a value pass only if it then
    has it on record and is not over its limit. -/
theorem gates {cell : Cell σ Record} {limit : Limit} {overflow : Filter σ}
    (retain : overflow.Moves (Retains fun s => (cell.get s).values))
    (denies : ∀ id w reply, (overflow.accept id).outcome w = .ok reply → reply = .deny) :
    (Filter.tagCap cell limit overflow).Gates (fun s => (cell.get s).values) limit.valueOf?
      limit.max where
  retains := .tagCap (fun id v value s => by
    unfold Retains
    simpa [Cell.get_put] using Record.values_subset_offer limit.max v (cell.get s)) retain
  counts := by
    intro id v w reply w' value asked allowed
    have ran : accept cell limit overflow id w = .ok reply w' := asked
    rw [accept_of_some value] at ran
    by_cases exceeds : ((cell.get w.state).offer limit.max v).isOver limit.max = true
    · simp only [exceeds, if_true] at ran
      exact absurd (denies id _ reply (Eval.outcome_of_ok ran)) allowed
    · simp only [exceeds] at ran
      cases ran
      rw [World.get_put]
      exact ⟨Record.mem_offer limit.max v _, by simpa [Record.isOver] using exceeds⟩

end TagCap

/-! ## Stock filters forget nothing -/

namespace StockFilter

/-- No stock filter takes a series out of a metric cap's record. -/
theorem retains_seen (f : StockFilter) (n : Nat) :
    f.toFilter.Moves (Retains fun s => ((Store.metricCell n).get s).seen) := by
  refine moves_toFilter fun l _ id s => ?_
  show ((Store.metricCell n).get s).seen ⊆ ((Store.metricCell n).get (l.note id s)).seen
  by_cases own : Place.metric n = l.place
  · cases l with
    | metricCap place max =>
        cases own
        simpa [Limiter.note, Cell.get_put] using MetricCap.Record.seen_subset_offer max id.series _
    | tagCap place limit => cases own
  · rw [Sum.inl.inj (l.recordAt_note own id s)]
    exact List.Subset.refl _

theorem retains_values (f : StockFilter) (n : Nat) :
    f.toFilter.Moves (Retains fun s => ((Store.valueCell n).get s).values) := by
  refine moves_toFilter fun l _ id s => ?_
  show ((Store.valueCell n).get s).values ⊆ ((Store.valueCell n).get (l.note id s)).values
  by_cases own : Place.values n = l.place
  · cases l with
    | metricCap place max => cases own
    | tagCap place limit =>
        cases own
        simp only [Limiter.note]
        split
        · exact List.Subset.refl _
        · next v value =>
            simpa [Cell.get_put] using TagCap.Record.values_subset_offer limit.max v _
  · rw [Sum.inr.inj (l.recordAt_note own id s)]
    exact List.Subset.refl _

end StockFilter

/-! ## What a chain lets through -/

/-- **Cost control.** In a chain there is a limiter among any other filters, which take nothing out
    of its record. Whatever was asked of the chain, the registrations that came back enabled without
    an opinion of the filters before the limiter have together no more series than a metric cap
    allows, and no more values of its tag than a tag cap allows whose overflow filter answers
    nothing but a denial. -/
theorem Chain.cost_control {σ : Type} (before after : Chain σ) (requests : List Request)
    (w : World σ) :
    (∀ (cell : Cell σ MetricCap.Record) (max : Nat),
      (∀ f ∈ before ++ after, f.Moves (Retains fun s => (cell.get s).seen)) →
      distinctSeries (admittedPast before (.metricCap cell max :: after) requests w) ≤ max) ∧
    (∀ (cell : Cell σ TagCap.Record) (limit : TagCap.Limit) (overflow : Filter σ),
      (∀ f ∈ overflow :: (before ++ after), f.Moves (Retains fun s => (cell.get s).values)) →
      (∀ id w reply, (overflow.accept id).outcome w = .ok reply → reply = .deny) →
      (limit.valuesAmong
        (admittedPast before (.tagCap cell limit overflow :: after) requests w)).card
          ≤ limit.max) := by
  refine ⟨fun cell max retain => ?_, fun cell limit overflow retain denies => ?_⟩
  · have few := (card_admittedPast_le (MetricCap.gates cell max) retain requests w).2
    rwa [List.filterMap_eq_map'] at few
  · obtain ⟨behind, others⟩ := List.forall_mem_cons.1 retain
    exact (card_admittedPast_le (TagCap.gates behind denies) others requests w).2

/-- A chain accepts critical meters, and has a cap of two series before a cap of one table. Of the
    meters that are registered the critical one is let through by its own filter, and one table by
    both caps: they deny the second table, the first one when it comes again, and a third series. -/
theorem Chain.cost_control_two_caps :
    let critical := StockFilter.acceptNameStartsWith "critical"
    let cap := StockFilter.metricCap 0 2
    let tables : TagCap.Limit := ⟨"db.calls", "table", 1⟩
    let tableCap := StockFilter.tagCap 0 tables .denyAll
    let call : String → MeterId := fun table => ⟨"db.calls", .timer, [⟨"table", table⟩], none, none⟩
    let requests := [⟨"critical.errors", .counter, [], none, none⟩, call "users", call "orders",
      call "users", ⟨"jvm.memory", .gauge, [], none, none⟩].map fun id => Request.register id .none
    let past := fun before gate after =>
      admittedPast (StockFilter.toChain before) (StockFilter.toChain (gate :: after)) requests
        (.fresh {})
    past [] critical [cap, tableCap]
      = [⟨"critical.errors", .counter, [], none, none⟩, call "users"] ∧
    distinctSeries (past [critical] cap [tableCap]) ≤ 2 ∧
    (tables.valuesAmong (past [critical, cap] tableCap [])).card ≤ 1 := by
  intro critical cap tables tableCap call requests past
  have denies : ∀ id (w : World Store) reply,
      (StockFilter.denyAll.toFilter.accept id).outcome w = .ok reply → reply = .deny := by
    intro id w reply answered
    cases answered
    rfl
  obtain ⟨series, -⟩ := cost_control (StockFilter.toChain [critical])
    (StockFilter.toChain [tableCap]) requests (.fresh {})
  obtain ⟨-, values⟩ := cost_control (StockFilter.toChain [critical, cap])
    (StockFilter.toChain []) requests (.fresh {})
  refine ⟨by decide +kernel, series (Store.metricCell 0) 2 ?_,
    values (Store.valueCell 0) tables StockFilter.denyAll.toFilter ?_ denies⟩
  · simp only [StockFilter.toChain, List.cons_append, List.nil_append, List.forall_mem_cons]
    exact ⟨critical.retains_seen 0, tableCap.retains_seen 0, List.forall_mem_nil _⟩
  · simp only [StockFilter.toChain, List.cons_append, List.nil_append, List.forall_mem_cons]
    exact ⟨StockFilter.denyAll.retains_values 0, critical.retains_values 0, cap.retains_values 0,
      List.forall_mem_nil _⟩

end MeterGate
