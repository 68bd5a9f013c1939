import MeterGate.Proofs.Holdings
import MeterGate.Proofs.Place
import MeterGate.Proofs.RuleEffect
import Mathlib.Data.List.Nodup

set_option autoImplicit false

/-! # Filters over two memories

Two computations, each over a memory of its own, are alike along a relation of the memories if from
related ones they give the same, report and watch the same, and leave related ones (`Eval.Alike`).
This passes from steps to what is made of them, so filters whose operations are alike have the same
exchanges for whatever requests (`Filter.Alike.exchanges`).

Limiters are alike that have the same record and the same limits, wherever the record is. So the
chains that a list of rules builds over two stores are alike along the pairs of places that the
rules are given in both (`Rule.alike_buildAll`). -/

namespace MeterGate

/-- Two worlds with related memories, in which the same was reported and watched. -/
structure World.Alike {σ τ : Type} (R : σ → τ → Prop) (v : World σ) (w : World τ) : Prop where
  memory : R v.state w.state
  events : v.events = w.events
  calls : v.calls = w.calls

/-- Two cells that hold the same in related memories, which stay related when the same is put in
    both. -/
structure Cell.Alike {σ τ α : Type} (R : σ → τ → Prop) (c : Cell σ α) (d : Cell τ α) : Prop where
  get : ∀ {s t}, R s t → c.get s = d.get t
  put : ∀ {s t} a, R s t → R (c.put a s) (d.put a t)

/-! ## Computations -/

namespace Eval

variable {σ τ α β : Type} {R : σ → τ → Prop}

/-- From worlds that are alike two computations give the same and leave worlds that are alike. -/
def Alike (R : σ → τ → Prop) (x : Eval σ α) (y : Eval τ α) : Prop :=
  ∀ v w, World.Alike R v w →
    x.outcome v = y.outcome w ∧ World.Alike R (x.worldAfter v) (y.worldAfter w)

namespace Alike

theorem pure (a : α) : Alike R (pure a : Eval σ α) (pure a : Eval τ α) := fun _ _ h => ⟨rfl, h⟩

theorem log (e : Event) : Alike R (log e : Eval σ Unit) (log e : Eval τ Unit) :=
  fun _ _ h => ⟨rfl, h.memory, congrArg (· ++ [e]) h.events, h.calls⟩

theorem read {c : Cell σ α} {d : Cell τ α} (h : c.Alike R d) : Alike R (read c) (read d) :=
  fun _ _ alike => ⟨congrArg Except.ok (h.get alike.memory), alike⟩

theorem write [DecidableEq α] {c : Cell σ α} {d : Cell τ α} (h : c.Alike R d) (a : α) :
    Alike R (write c a) (write d a) := by
  intro v w alike
  refine ⟨rfl, ?_⟩
  show World.Alike R (v.put c a) (w.put d a)
  unfold World.put
  -- the cells hold the same, so both change or none
  rw [h.get alike.memory]
  split
  · exact alike
  · exact ⟨h.put a alike.memory, alike.events, alike.calls⟩

theorem bind {x : Eval σ α} {y : Eval τ α} {f : α → Eval σ β} {g : α → Eval τ β}
    (first : Alike R x y) (later : ∀ a, Alike R (f a) (g a)) : Alike R (x >>= f) (y >>= g) := by
  intro v w alike
  obtain ⟨same, led⟩ := first v w alike
  rw [outcome_bind, outcome_bind, worldAfter_bind_outcome, worldAfter_bind_outcome, ← same]
  -- after a panic nothing comes any more
  cases x.outcome v with
  | ok a => exact later a _ _ led
  | error p => exact ⟨rfl, led⟩

end Alike

end Eval

/-! ## Filters -/

namespace Filter

variable {σ τ : Type} {R : σ → τ → Prop}

/-- The operations of two filters are alike. -/
structure Alike (R : σ → τ → Prop) (f : Filter σ) (g : Filter τ) : Prop where
  map : ∀ id, Eval.Alike R (f.map id) (g.map id)
  accept : ∀ id, Eval.Alike R (f.accept id) (g.accept id)
  configure : ∀ id config, Eval.Alike R (f.configure id config) (g.configure id config)

namespace Alike

theorem metricCap {c : Cell σ MetricCap.Record} {d : Cell τ MetricCap.Record} (h : c.Alike R d)
    (max : Nat) : (Filter.metricCap c max).Alike R (Filter.metricCap d max) := by
  refine ⟨fun id => .pure id, fun id => ?_, fun _ config => .pure config⟩
  refine .bind (.read h) fun before => .bind (.write h _) fun _ => ?_
  split
  · exact .bind (.log _) fun _ => .pure _
  · exact .pure _

theorem tagCap {c : Cell σ TagCap.Record} {d : Cell τ TagCap.Record} (h : c.Alike R d)
    (limit : TagCap.Limit) {f : Filter σ} {g : Filter τ} (behind : f.Alike R g) :
    (Filter.tagCap c limit f).Alike R (Filter.tagCap d limit g) := by
  refine ⟨fun id => .pure id, fun id => ?_, fun id config => ?_⟩
  · show Eval.Alike R (TagCap.accept c limit f id) (TagCap.accept d limit g id)
    unfold TagCap.accept
    split
    · exact .pure _
    · refine .bind (.read h) fun before => .bind (.write h _) fun _ => ?_
      split
      · split
        · exact .bind (.log _) fun _ => behind.accept id
        · exact behind.accept id
      · exact .pure _
  · refine .bind (.read h) fun record => ?_
    split
    · exact behind.configure id config
    · exact .pure _

/-- The passes of two chains are alike if their filters are, one by one. -/
theorem chain {xs : Chain σ} {ys : Chain τ} (h : List.Forall₂ (Alike R) xs ys) :
    (Chain.toFilter xs).Alike R (Chain.toFilter ys) := by
  refine ⟨fun id => ?_, fun id => ?_, fun id config => ?_⟩
  · show Eval.Alike R (Chain.map xs id) (Chain.map ys id)
    induction h generalizing id with
    | nil => exact .pure id
    | cons here _ ih => exact .bind (here.map id) ih
  · show Eval.Alike R (Chain.accept xs id) (Chain.accept ys id)
    induction h with
    | nil => exact .pure _
    | cons here _ ih =>
        refine .bind (here.accept id) fun reply => ?_
        cases reply with
        | accept | deny => exact .pure _
        | neutral => exact ih
  · show Eval.Alike R (Chain.configure xs id config) (Chain.configure ys id config)
    induction h generalizing config with
    | nil => exact .pure config
    | cons here _ ih => exact .bind (here.configure id config) ih

section

variable {f : Filter σ} {g : Filter τ} (h : f.Alike R g)
include h

theorem register (id : MeterId) (initial : DistributionConfig) :
    Eval.Alike R (f.register id initial) (g.register id initial) := by
  refine .bind (h.map id) fun id => .bind (h.accept id) fun reply => ?_
  refine .bind ?_ fun config => .bind (.log _) fun _ => .pure _
  unfold configureIfUsed
  split
  · exact .bind (h.configure id initial) fun _ => .pure _
  · exact .pure _

theorem ask (request : Request) : Eval.Alike R (f.ask request) (g.ask request) := by
  cases request with
  | register id config => exact .bind (h.register id config) fun _ => .pure _
  | map id => exact .bind (h.map id) fun _ => .pure _
  | accept id => exact .bind (h.accept id) fun _ => .pure _
  | configure id config => exact .bind (h.configure id config) fun _ => .pure _

theorem exchange (request : Request) {s : σ} {t : τ} (related : R s t) :
    (f.exchange request s).1 = (g.exchange request t).1
      ∧ R (f.exchange request s).2 (g.exchange request t).2 := by
  obtain ⟨same, led⟩ := h.ask request (.fresh s) (.fresh t) ⟨related, rfl, rfl⟩
  simp only [Filter.exchange, respond_fst, respond_snd, same, led.events, led.calls, true_and]
  exact led.memory

theorem exchanges (requests : List Request) {s : σ} {t : τ} (related : R s t) :
    (f.exchanges requests s).map Prod.fst = (g.exchanges requests t).map Prod.fst
      ∧ R (f.memoryAfter requests s) (g.memoryAfter requests t) := by
  induction requests generalizing s t with
  | nil => exact ⟨rfl, related⟩
  | cons request rest ih =>
      obtain ⟨same, led⟩ := h.exchange request related
      obtain ⟨later, last⟩ := ih led
      refine ⟨?_, last⟩
      rw [Filter.exchanges, Filter.exchanges, List.map_cons, List.map_cons, same, later]

end

end Alike

end Filter

/-! ## Places in two stores -/

namespace Store

/-- The record at the first place of each pair, in the one store, is that at the second place, in
    the other. -/
def Paired (pairs : List (Place × Place)) (s t : Store) : Prop :=
  ∀ p ∈ pairs, recordAt p.1 s = recordAt p.2 t

/-- Each place of the one side has one partner on the other. -/
def OneToOne (pairs : List (Place × Place)) : Prop :=
  ∀ p ∈ pairs, ∀ q ∈ pairs, p.1 = q.1 ↔ p.2 = q.2

theorem oneToOne_zip {xs ys : List Place} (hx : xs.Nodup) (hy : ys.Nodup) :
    OneToOne (xs.zip ys) := by
  intro p hp q hq
  obtain ⟨i, hi, rfl⟩ := List.mem_iff_getElem.1 hp
  obtain ⟨j, hj, rfl⟩ := List.mem_iff_getElem.1 hq
  simp only [List.getElem_zip, hx.getElem_inj_iff, hy.getElem_inj_iff]

/-- The places of two lists are paired in order if the lists of records are the same. -/
theorem paired_zip {xs ys : List Place} {s t : Store}
    (same : xs.map (recordAt · s) = ys.map (recordAt · t)) : Paired (xs.zip ys) s t := by
  intro p hp
  obtain ⟨i, hi, rfl⟩ := List.mem_iff_getElem.1 hp
  have := congrArg (·[i]?) same
  simp only [List.length_zip, Nat.lt_min] at hi
  simpa [hi.1, hi.2] using this

theorem map_recordAt_of_paired {xs ys : List Place} (length : xs.length = ys.length) {s t : Store}
    (paired : Paired (xs.zip ys) s t) : xs.map (recordAt · s) = ys.map (recordAt · t) := by
  refine List.ext_getElem (by simpa using length) fun i hx hy => ?_
  simp only [List.length_map] at hx hy
  have both : i < (xs.zip ys).length := by
    rw [List.length_zip]
    exact Nat.lt_min.2 ⟨hx, hy⟩
  have same := paired _ (List.getElem_mem both)
  simpa using same

variable {pairs : List (Place × Place)} (apart : OneToOne pairs)
include apart

theorem alike_metricCell {m n : Nat} (mem : (Place.metric m, Place.metric n) ∈ pairs) :
    (metricCell m).Alike (Paired pairs) (metricCell n) := by
  refine ⟨fun related => Sum.inl.inj (related _ mem), fun {s t} r related p hp => ?_⟩
  by_cases own : p.1 = .metric m
  · rw [own, (apart p hp _ mem).1 own]
    exact congrArg Sum.inl (((metricCell m).get_put r s).trans ((metricCell n).get_put r t).symm)
  · have other : p.2 ≠ .metric n := fun h => own ((apart p hp _ mem).2 h)
    rw [recordAt_put_metric own, recordAt_put_metric other]
    exact related p hp

theorem alike_valueCell {m n : Nat} (mem : (Place.values m, Place.values n) ∈ pairs) :
    (valueCell m).Alike (Paired pairs) (valueCell n) := by
  refine ⟨fun related => Sum.inr.inj (related _ mem), fun {s t} r related p hp => ?_⟩
  by_cases own : p.1 = .values m
  · rw [own, (apart p hp _ mem).1 own]
    exact congrArg Sum.inr (((valueCell m).get_put r s).trans ((valueCell n).get_put r t).symm)
  · have other : p.2 ≠ .values n := fun h => own ((apart p hp _ mem).2 h)
    rw [recordAt_put_values own, recordAt_put_values other]
    exact related p hp

end Store

/-! ## Chains of the same rules -/

namespace Rule

theorem length_places_build (rule : Rule) (s t : Store) :
    (rule.build s).1.places.length = (rule.build t).1.places.length := by
  induction rule generalizing s t with
  | maximumAllowableTags name key max overflow ih => exact congrArg Nat.succ (ih s t)
  | _ => rfl

theorem length_places_buildAll (rules : List Rule) (s t : Store) :
    (StockFilter.placesOfAll (buildAll rules s).1).length
      = (StockFilter.placesOfAll (buildAll rules t).1).length := by
  induction rules generalizing s t with
  | nil => rfl
  | cons rule rest ih =>
      rw [buildAll, buildAll, StockFilter.placesOfAll, StockFilter.placesOfAll, List.length_append,
        List.length_append, length_places_build rule s t, ih]

variable {pairs : List (Place × Place)} (apart : Store.OneToOne pairs)
include apart

/-- The filters of a rule are alike that is built over two stores. -/
theorem alike_build (rule : Rule) (s t : Store)
    (within : ∀ p ∈ (rule.build s).1.places.zip (rule.build t).1.places, p ∈ pairs) :
    (rule.build s).1.toFilter.Alike (Store.Paired pairs) (rule.build t).1.toFilter := by
  induction rule generalizing s t with
  | maximumAllowableMetrics max =>
      exact .metricCap (Store.alike_metricCell apart (within _ List.mem_cons_self)) _
  | maximumAllowableTags name key max overflow ih =>
      refine .tagCap (Store.alike_valueCell apart (within _ List.mem_cons_self)) _ ?_
      exact ih s t fun p hp => within p (List.mem_cons_of_mem _ hp)
  | _ =>
      refine ⟨fun id => ?_, fun id => ?_, fun id config => ?_⟩
      · rw [map_build, map_build]
        exact .pure _
      · rw [accept_build_plain rfl, accept_build_plain rfl]
        exact .pure _
      · rw [configure_build_plain rfl, configure_build_plain rfl]
        exact .pure _

theorem alike_buildAll (rules : List Rule) (s t : Store)
    (within : ∀ p ∈ (StockFilter.placesOfAll (buildAll rules s).1).zip
      (StockFilter.placesOfAll (buildAll rules t).1), p ∈ pairs) :
    (Chain.toFilter (StockFilter.toChain (buildAll rules s).1)).Alike (Store.Paired pairs)
      (Chain.toFilter (StockFilter.toChain (buildAll rules t).1)) := by
  refine .chain ?_
  induction rules generalizing s t with
  | nil => exact .nil
  | cons rule rest ih =>
      simp only [buildAll, StockFilter.placesOfAll, List.zip_append (length_places_build rule s t),
        List.mem_append] at within
      exact .cons (alike_build apart rule s t fun p hp => within p (Or.inl hp))
        (ih _ _ fun p hp => within p (Or.inr hp))

end Rule

end MeterGate
