import MeterGate.Proofs.Course
import MeterGate.Config.Build
import Mathlib.Data.List.Basic

set_option autoImplicit false

/-! # Places of limiters

A filter changes the memory only by noting ids with the limiters in it (`StockFilter.limiters`), in
all three operations and over panics (`StockFilter.moves_toFilter`). `StockFilter.places` lists
where these have their records, and the record at any other place is out of the filter's reach
(`StockFilter.keeps_toFilter`).

The limiters of rules that are built get places that were free before (`Rule.places_buildAll`), each
one its own (`Rule.nodup_places_buildAll`), and a free place is blank. -/

namespace MeterGate

/-- A place in the store: of the record of a metric cap, or of a tag cap. -/
inductive Place where
  | metric (n : Nat)
  | values (n : Nat)
deriving DecidableEq, Repr

namespace Store

/-- The record at a place. -/
def recordAt : Place → Store → MetricCap.Record ⊕ TagCap.Record
  | .metric n, s => .inl ((metricCell n).get s)
  | .values n, s => .inr ((valueCell n).get s)

/-- The record of a limiter that has seen nothing. -/
def blankAt : Place → MetricCap.Record ⊕ TagCap.Record
  | .metric _ => .inl {}
  | .values _ => .inr {}

/-- Whether a place has been given to a limiter. -/
def Has (s : Store) : Place → Prop
  | .metric n => n < s.metrics.length
  | .values n => n < s.values.length

/-- The second store has every place that the first one has. -/
def Grows (s t : Store) : Prop := ∀ p, s.Has p → t.Has p

instance : IsPreorder Store Grows where
  refl _ _ hp := hp
  trans _ _ _ h k p hp := k p (h p hp)

theorem recordAt_of_not_has {s : Store} {p : Place} (h : ¬ s.Has p) :
    recordAt p s = blankAt p := by
  cases p with
  | metric n =>
      have free : s.metrics[n]? = none := List.getElem?_eq_none (Nat.le_of_not_lt h)
      simp only [recordAt, blankAt, metricCell, Row.get, List.getD_eq_getElem?_getD, free]
      rfl
  | values n =>
      have free : s.values[n]? = none := List.getElem?_eq_none (Nat.le_of_not_lt h)
      simp only [recordAt, blankAt, valueCell, Row.get, List.getD_eq_getElem?_getD, free]
      rfl

theorem recordAt_put_metric {p : Place} {n : Nat} (h : p ≠ .metric n) (r : MetricCap.Record)
    (s : Store) : recordAt p ((metricCell n).put r s) = recordAt p s := by
  cases p with
  | metric m =>
      have hne : m ≠ n := fun he => h (he ▸ rfl)
      simp [recordAt, metricCell, Row.get_put, hne]
  | values m => rfl

theorem recordAt_put_values {p : Place} {n : Nat} (h : p ≠ .values n) (r : TagCap.Record)
    (s : Store) : recordAt p ((valueCell n).put r s) = recordAt p s := by
  cases p with
  | metric m => rfl
  | values m =>
      have hne : m ≠ n := fun he => h (he ▸ rfl)
      simp [recordAt, valueCell, Row.get_put, hne]

end Store

/-! ## Noting an id -/

/-- A limiter in a filter: where its record is, and what it allows. -/
inductive Limiter where
  | metricCap (place max : Nat)
  | tagCap (place : Nat) (limit : TagCap.Limit)
deriving DecidableEq, Repr

namespace Limiter

/-- Where a limiter has its record. -/
def place : Limiter → Place
  | metricCap place _ => .metric place
  | tagCap place _ => .values place

/-- The store after a limiter took note of an id. -/
def note (id : MeterId) : Limiter → Store → Store
  | metricCap place max, s =>
      let cell := Store.metricCell place
      cell.put ((cell.get s).offer max id.series) s
  | tagCap place limit, s =>
      match limit.valueOf? id with
      | none => s
      | some v =>
          let cell := Store.valueCell place
          cell.put ((cell.get s).offer limit.max v) s

theorem recordAt_note {l : Limiter} {p : Place} (h : p ≠ l.place) (id : MeterId) (s : Store) :
    Store.recordAt p (l.note id s) = Store.recordAt p s := by
  cases l with
  | metricCap place max => exact Store.recordAt_put_metric h _ s
  | tagCap place limit =>
      simp only [note]
      split
      · rfl
      · exact Store.recordAt_put_values h _ s

end Limiter

/-! ## Where filters lead -/

section

variable {σ : Type} {R : σ → σ → Prop} [IsPreorder σ R]

/-- A metric cap does no more than to note the series of an id. -/
theorem MetricCap.moves_accept {cell : Cell σ MetricCap.Record} {max : Nat} {id : MeterId}
    (step : ∀ s, R s (cell.put ((cell.get s).offer max id.series) s)) :
    (MetricCap.accept cell max id).Moves R := by
  refine .update step fun before => ?_
  split
  · exact (Eval.Moves.log _).bind fun _ => .pure _
  · exact .pure _

/-- A tag cap does no more than to note the value of an id, apart from what its overflow filter
    does. -/
theorem TagCap.moves_accept {cell : Cell σ TagCap.Record} {limit : TagCap.Limit}
    {overflow : Filter σ} {id : MeterId}
    (step : ∀ v, limit.valueOf? id = some v →
      ∀ s, R s (cell.put ((cell.get s).offer limit.max v) s))
    (h : (overflow.accept id).Moves R) : (TagCap.accept cell limit overflow id).Moves R := by
  unfold TagCap.accept
  split
  · exact .pure _
  · next v value =>
      refine .update (step v value) fun before => ?_
      split
      · split
        · exact (Eval.Moves.log _).bind fun _ => h
        · exact h
      · exact .pure _

theorem TagCap.moves_configure {cell : Cell σ TagCap.Record} {limit : TagCap.Limit}
    {overflow : Filter σ} {id : MeterId} {config : DistributionConfig}
    (h : (overflow.configure id config).Moves R) :
    (TagCap.configure cell limit overflow id config).Moves R := by
  refine (Eval.Moves.read cell).bind fun record => ?_
  split
  · exact h
  · exact .pure _

namespace Filter

theorem Moves.passThrough : (passThrough : Filter σ).Moves R :=
  ⟨fun _ => .pure _, fun _ => .pure _, fun _ _ => .pure _⟩

theorem Moves.watched {f : Filter σ} (h : f.Moves R) (label : String) : (watched label f).Moves R :=
  ⟨fun id => (Eval.Moves.watch _).bind fun _ => h.map id,
    fun id => (Eval.Moves.watch _).bind fun _ => h.accept id,
    fun id config => (Eval.Moves.watch _).bind fun _ => h.configure id config⟩

theorem Moves.metricCap {cell : Cell σ MetricCap.Record} {max : Nat}
    (step : ∀ (id : MeterId) s, R s (cell.put ((cell.get s).offer max id.series) s)) :
    (metricCap cell max).Moves R :=
  ⟨fun _ => .pure _, fun id => MetricCap.moves_accept (step id), fun _ _ => .pure _⟩

theorem Moves.tagCap {cell : Cell σ TagCap.Record} {limit : TagCap.Limit} {overflow : Filter σ}
    (step : ∀ id v, limit.valueOf? id = some v →
      ∀ s, R s (cell.put ((cell.get s).offer limit.max v) s))
    (h : overflow.Moves R) : (tagCap cell limit overflow).Moves R :=
  ⟨fun _ => .pure _, fun id => TagCap.moves_accept (step id) (h.accept id),
    fun id config => TagCap.moves_configure (h.configure id config)⟩

end Filter

theorem Chain.moves {chain : Chain σ} (h : ∀ f ∈ chain, f.Moves R) :
    (Chain.toFilter chain).Moves R where
  map := Chain.map_of (.moves R) fun f hf => (h f hf).map
  accept id := Chain.accept_of (.moves R) fun f hf => (h f hf).accept id
  configure id := Chain.configure_of (.moves R) fun f hf => (h f hf).configure id

end

namespace StockFilter

mutual

/-- The limiters in a filter, those behind tag caps included. -/
def limiters : StockFilter → List Limiter
  | metricCap place max => [.metricCap place max]
  | tagCap place limit overflow => .tagCap place limit :: overflow.limiters
  | boxed inner => inner.limiters
  | chain filters => limitersOfAll filters
  | watched _ inner => inner.limiters
  | _ => []

/-- The limiters in a list of filters. -/
def limitersOfAll : List StockFilter → List Limiter
  | [] => []
  | f :: rest => f.limiters ++ limitersOfAll rest

end

mutual

/-- The places of the limiters in a filter. -/
def places : StockFilter → List Place
  | metricCap place _ => [.metric place]
  | tagCap place _ overflow => .values place :: overflow.places
  | boxed inner => inner.places
  | chain filters => placesOfAll filters
  | watched _ inner => inner.places
  | _ => []

/-- The places of the limiters in a list of filters. -/
def placesOfAll : List StockFilter → List Place
  | [] => []
  | f :: rest => f.places ++ placesOfAll rest

end

theorem limitersOfAll_eq_flatMap (filters : List StockFilter) :
    limitersOfAll filters = filters.flatMap limiters := by
  induction filters with
  | nil => rfl
  | cons f rest ih => rw [limitersOfAll, ih, List.flatMap_cons]

theorem placesOfAll_eq_flatMap (filters : List StockFilter) :
    placesOfAll filters = filters.flatMap places := by
  induction filters with
  | nil => rfl
  | cons f rest ih => rw [placesOfAll, ih, List.flatMap_cons]

theorem mem_limiters_chain {f : StockFilter} {filters : List StockFilter} {l : Limiter}
    (hf : f ∈ filters) (hl : l ∈ f.limiters) : l ∈ (chain filters).limiters := by
  rw [limiters, limitersOfAll_eq_flatMap]
  exact List.mem_flatMap.2 ⟨f, hf, hl⟩

theorem map_place_limiters (f : StockFilter) : f.limiters.map Limiter.place = f.places := by
  induction f using induction with
  | tagCap place limit overflow ih =>
      rw [limiters, places, List.map_cons, ih]
      rfl
  | boxed inner ih => exact ih
  | chain filters ih =>
      rw [limiters, places, limitersOfAll_eq_flatMap, placesOfAll_eq_flatMap, List.map_flatMap]
      exact List.flatMap_congr fun f hf => ih f hf
  | watched label inner ih => exact ih
  | _ => rfl

/-- A filter leads where the notes of its limiters lead. -/
theorem moves_toFilter {R : Store → Store → Prop} [IsPreorder Store R] {f : StockFilter}
    (noted : ∀ l ∈ f.limiters, ∀ id s, R s (l.note id s)) : f.toFilter.Moves R := by
  induction f using induction with
  | commonTags | renameTag | ignoreTags | byName | expectedBound =>
      exact ⟨fun _ => .pure _, fun _ => .pure _, fun _ _ => .pure _⟩
  | replaceTagValues | mapClosure =>
      exact ⟨fun _ => .ofClosure _, fun _ => .pure _, fun _ _ => .pure _⟩
  | byPredicate | acceptClosure =>
      exact ⟨fun _ => .pure _, fun _ => .ofClosure _, fun _ _ => .pure _⟩
  | configureClosure => exact ⟨fun _ => .pure _, fun _ => .pure _, fun _ _ => .ofClosure _⟩
  | passThrough => exact .passThrough
  | metricCap place max => exact .metricCap (noted _ List.mem_cons_self)
  | tagCap place limit overflow ih =>
      refine .tagCap (fun id v value s => ?_) (ih fun l hl => noted l (List.mem_cons_of_mem _ hl))
      have own := noted _ List.mem_cons_self id s
      simp only [Limiter.note, value] at own
      exact own
  | boxed inner ih => exact ih noted
  | chain filters ih =>
      rw [toFilter_chain]
      refine Chain.moves fun f' hf' => ?_
      obtain ⟨f, hf, rfl⟩ := List.mem_map.1 hf'
      exact ih f hf fun l hl => noted l (mem_limiters_chain hf hl)
  | watched label inner ih => exact (ih noted).watched label

variable {p : Place}

/-- A filter cannot reach a record that is not of one of its limiters. -/
theorem keeps_toFilter {f : StockFilter} (h : p ∉ f.places) :
    f.toFilter.Keeps (Store.recordAt p) := by
  refine .of_moves (moves_toFilter fun l hl id s => Limiter.recordAt_note ?_ id s)
  rintro rfl
  rw [← map_place_limiters] at h
  exact h (List.mem_map_of_mem hl)

theorem keeps_toChain {fs : List StockFilter} (h : p ∉ placesOfAll fs) :
    (Chain.toFilter (toChain fs)).Keeps (Store.recordAt p) :=
  show (chain fs).toFilter.Keeps _ from keeps_toFilter h

theorem keeps_valueCell {f : StockFilter} {n : Nat} (h : .values n ∉ f.places) :
    f.toFilter.Keeps (Store.valueCell n).get :=
  have kept := keeps_toFilter h
  ⟨fun id w => Sum.inr.inj (kept.map id w), fun id w => Sum.inr.inj (kept.accept id w),
    fun id config w => Sum.inr.inj (kept.configure id config w)⟩

/-- A filter takes no place from a limiter. -/
theorem moves_grows (f : StockFilter) : f.toFilter.Moves Store.Grows := by
  refine moves_toFilter fun l _ id s p hp => ?_
  cases l with
  | metricCap place max =>
      cases p with
      | metric n => exact Nat.lt_of_lt_of_le hp (Row.length_le_put _ _ _)
      | values n => exact hp
  | tagCap place limit =>
      simp only [Limiter.note]
      split
      · exact hp
      · cases p with
        | metric n => exact hp
        | values n => exact Nat.lt_of_lt_of_le hp (Row.length_le_put _ _ _)

end StockFilter

/-! ## Places that building gives -/

namespace Store

/-- A store with more places than another and the same records. -/
structure Extends (s t : Store) : Prop where
  recordAt_eq : ∀ p, recordAt p t = recordAt p s
  has : ∀ {p}, s.Has p → t.Has p

theorem Extends.refl (s : Store) : s.Extends s := ⟨fun _ => rfl, id⟩

theorem Extends.trans {s t u : Store} (h : s.Extends t) (k : t.Extends u) : s.Extends u :=
  ⟨fun p => (k.recordAt_eq p).trans (h.recordAt_eq p), fun hp => k.has (h.has hp)⟩

theorem extends_newMetricCap (s : Store) : s.Extends s.newMetricCap.2 := by
  refine ⟨fun p => ?_, fun {p} hp => ?_⟩
  · cases p with
    | metric n => exact congrArg Sum.inl (get_newMetricCap s n)
    | values n => rfl
  · cases p with
    | metric n =>
        have : n < s.metrics.length := hp
        simp only [Has, newMetricCap, List.length_append, List.length_singleton]
        omega
    | values n => exact hp

theorem extends_newTagCap (s : Store) : s.Extends s.newTagCap.2 := by
  refine ⟨fun p => ?_, fun {p} hp => ?_⟩
  · cases p with
    | metric n => rfl
    | values n => exact congrArg Sum.inr (get_newTagCap s n)
  · cases p with
    | metric n => exact hp
    | values n =>
        have : n < s.values.length := hp
        simp only [Has, newTagCap, List.length_append, List.length_singleton]
        omega

end Store

theorem places_maxFilter (b : ExpectedBound) : b.maxFilter.places = [] := by
  unfold ExpectedBound.maxFilter
  split <;> rfl

theorem places_minFilter (b : ExpectedBound) : b.minFilter.places = [] := by
  unfold ExpectedBound.minFilter
  split <;> rfl

namespace Rule

theorem extends_build (rule : Rule) (s : Store) : s.Extends (rule.build s).2 := by
  induction rule generalizing s with
  | maximumAllowableMetrics max => exact s.extends_newMetricCap
  | maximumAllowableTags name key max overflow ih =>
      exact (ih s).trans (Store.extends_newTagCap _)
  | _ => exact .refl s

/-- The limiters of a rule get places that were free. -/
theorem places_build (rule : Rule) (s : Store) :
    ∀ p ∈ (rule.build s).1.places, ¬ s.Has p ∧ (rule.build s).2.Has p := by
  induction rule generalizing s with
  | maximumAllowableMetrics max =>
      intro p hp
      obtain rfl := List.mem_singleton.1 hp
      simp [build, Store.newMetricCap, Store.Has]
  | maximumAllowableTags name key max overflow ih =>
      intro p hp
      rcases List.mem_cons.1 hp with rfl | hp
      · -- the tag cap's place comes after those of its overflow rule
        refine ⟨fun taken => ?_, by simp [build, Store.newTagCap, Store.Has]⟩
        exact absurd ((extends_build overflow s).has taken) (by simp [Store.Has])
      · obtain ⟨free, given⟩ := ih s p hp
        exact ⟨free, (Store.extends_newTagCap _).has given⟩
  | maxExpected b => simp [build, places_maxFilter]
  | minExpected b => simp [build, places_minFilter]
  | _ => exact fun p hp => absurd hp List.not_mem_nil

theorem extends_buildAll (rules : List Rule) (s : Store) : s.Extends (buildAll rules s).2 := by
  induction rules generalizing s with
  | nil => exact .refl s
  | cons rule rest ih => exact (extends_build rule s).trans (ih _)

theorem places_buildAll (rules : List Rule) (s : Store) :
    ∀ p ∈ StockFilter.placesOfAll (buildAll rules s).1, ¬ s.Has p := by
  induction rules generalizing s with
  | nil => simp [buildAll, StockFilter.placesOfAll]
  | cons rule rest ih =>
      intro p hp
      simp only [buildAll, StockFilter.placesOfAll, List.mem_append] at hp
      rcases hp with hp | hp
      · exact (places_build rule s p hp).1
      · exact fun taken => ih _ p hp ((extends_build rule s).has taken)

theorem has_buildAll (rules : List Rule) (s : Store) :
    ∀ p ∈ StockFilter.placesOfAll (buildAll rules s).1, (buildAll rules s).2.Has p := by
  induction rules generalizing s with
  | nil => simp [buildAll, StockFilter.placesOfAll]
  | cons rule rest ih =>
      intro p hp
      simp only [buildAll, StockFilter.placesOfAll, List.mem_append] at hp
      rcases hp with hp | hp
      · exact (extends_buildAll rest _).has (places_build rule s p hp).2
      · exact ih _ p hp

theorem not_mem_places_of_mem {rule : Rule} {rest : List Rule} {s : Store} {p : Place}
    (h : p ∈ StockFilter.placesOfAll (buildAll rest (rule.build s).2).1) :
    p ∉ (rule.build s).1.places := by
  intro own
  exact places_buildAll rest _ p h (places_build rule s p own).2

/-- Each limiter of a rule gets a place of its own. -/
theorem nodup_places_build (rule : Rule) (s : Store) : (rule.build s).1.places.Nodup := by
  induction rule generalizing s with
  | maximumAllowableMetrics max => exact List.pairwise_singleton _ _
  | maximumAllowableTags name key max overflow ih =>
      refine List.nodup_cons.2 ⟨fun other => ?_, ih s⟩
      -- a place of the overflow rule was given before the tag cap's
      exact absurd (places_build overflow s _ other).2 (by simp [Store.Has])
  | maxExpected b => simp [build, places_maxFilter]
  | minExpected b => simp [build, places_minFilter]
  | _ => exact List.nodup_nil

theorem nodup_places_buildAll (rules : List Rule) (s : Store) :
    (StockFilter.placesOfAll (buildAll rules s).1).Nodup := by
  induction rules generalizing s with
  | nil => exact List.nodup_nil
  | cons rule rest ih =>
      refine List.nodup_append.2 ⟨nodup_places_build rule s, ih _, fun p own p' other => ?_⟩
      rintro rfl
      exact not_mem_places_of_mem other own

end Rule

end MeterGate
