import MeterGate.Proofs.Panic
import MeterGate.Proofs.Settling

set_option autoImplicit false

/-! # Registering a meter twice

What a chain of filters does to the memory about one id is to note it with some of its limiters
(`Store.Advances`), and a limiter that has noted an id is not disturbed by further notes of it, by
whichever of its occurrences in the chain they are taken (`Store.Advances.stays`). So every filter
settles (`StockFilter.settles_toFilter`), and a registration that is done twice gives the same both
times, and leaves every record the second time as the first time left it
(`StockFilter.register_twice`). -/

namespace MeterGate

/-! ## Notes of one id -/

namespace Limiter

/-- Limiters that have their records at the same place are one limiter. -/
def Apart (limiters : List Limiter) : Prop :=
  ∀ l ∈ limiters, ∀ l' ∈ limiters, l.place = l'.place → l = l'

instance (limiters : List Limiter) : Decidable (Apart limiters) :=
  inferInstanceAs (Decidable (∀ _ ∈ _, ∀ _ ∈ _, _ → _))

theorem recordAt_note_congr (l : Limiter) (id : MeterId) {s t : Store}
    (same : Store.recordAt l.place t = Store.recordAt l.place s) :
    Store.recordAt l.place (l.note id t) = Store.recordAt l.place (l.note id s) := by
  cases l with
  | metricCap place max =>
      have same : (Store.metricCell place).get t = (Store.metricCell place).get s :=
        Sum.inl.inj same
      simp only [Limiter.place, note, Store.recordAt, Cell.get_put, same]
  | tagCap place limit =>
      have held : (Store.valueCell place).get t = (Store.valueCell place).get s :=
        Sum.inr.inj same
      simp only [note]
      split
      · exact same
      · simp only [Limiter.place, Store.recordAt, Cell.get_put, held]

theorem recordAt_note_note (l : Limiter) (id : MeterId) (s : Store) :
    Store.recordAt l.place (l.note id (l.note id s)) = Store.recordAt l.place (l.note id s) := by
  cases l with
  | metricCap place max =>
      simp only [Limiter.place, note, Store.recordAt, Cell.get_put, MetricCap.Record.offer_offer]
  | tagCap place limit =>
      simp only [note]
      split
      · rfl
      · simp only [Limiter.place, Store.recordAt, Cell.get_put, TagCap.Record.offer_offer]

end Limiter

namespace Store

variable {limiters : List Limiter} {id : MeterId}

/-- A store in which some of the limiters have noted an id, and nothing else happened. -/
def Advances (limiters : List Limiter) (id : MeterId) (s t : Store) : Prop :=
  ∀ p, recordAt p t = recordAt p s ∨
    ∃ l ∈ limiters, l.place = p ∧ recordAt p t = recordAt p (l.note id s)

theorem advances_note (id : MeterId) {l : Limiter} (h : l ∈ limiters) (s : Store) :
    Advances limiters id s (l.note id s) := by
  intro p
  by_cases own : p = l.place
  · exact .inr ⟨l, h, own.symm, rfl⟩
  · exact .inl (l.recordAt_note own id s)

theorem isPreorder_advances (apart : Limiter.Apart limiters) (id : MeterId) :
    IsPreorder Store (Advances limiters id) where
  refl s p := .inl rfl
  trans s t u h k p := by
    rcases h p with first | ⟨l, hl, rfl, first⟩
    · rcases k p with second | ⟨l, hl, rfl, second⟩
      · exact .inl (second.trans first)
      · exact .inr ⟨l, hl, rfl, second.trans (l.recordAt_note_congr id first)⟩
    · refine .inr ⟨l, hl, rfl, ?_⟩
      rcases k l.place with second | ⟨l', hl', same, second⟩
      · exact second.trans first
      · -- both notes were taken by the same limiter, and the second one added nothing
        obtain rfl := apart l' hl' l hl same
        exact second.trans ((l'.recordAt_note_congr id first).trans (l'.recordAt_note_note id s))

/-- The record of a limiter that has noted the id stays as it is. -/
theorem Advances.stays (apart : Limiter.Apart limiters) {l : Limiter} (hl : l ∈ limiters)
    {s t : Store} (h : Advances limiters id s t)
    (noted : recordAt l.place (l.note id s) = recordAt l.place s) :
    recordAt l.place t = recordAt l.place s := by
  rcases h l.place with same | ⟨l', hl', place, moved⟩
  · exact same
  · obtain rfl := apart l' hl' l hl place
    exact moved.trans noted

end Store

/-- The limiters of rules that were built are apart. -/
theorem Rule.apart_buildAll (rules : List Rule) (s : Store) :
    Limiter.Apart (StockFilter.limitersOfAll (buildAll rules s).1) := by
  have places : (StockFilter.limitersOfAll (buildAll rules s).1).map Limiter.place
      = StockFilter.placesOfAll (buildAll rules s).1 :=
    StockFilter.map_place_limiters (.chain (buildAll rules s).1)
  have nodup := nodup_places_buildAll rules s
  rw [← places] at nodup
  intro l hl l' hl' same
  exact List.inj_on_of_nodup_map nodup hl hl' same

/-! ## Stock filters -/

namespace StockFilter

/-- A filter settles if the limiters in it are among limiters at different places, and nothing but
    notes of these may come in between. -/
theorem settles_toFilter {limiters : List Limiter} (apart : Limiter.Apart limiters)
    {f : StockFilter} (among : ∀ l ∈ f.limiters, l ∈ limiters) :
    f.toFilter.Settles (Store.Advances limiters) := by
  have := Store.isPreorder_advances apart
  induction f using induction with
  | commonTags | renameTag | ignoreTags | byName | expectedBound =>
      exact ⟨fun _ => .pure _, fun _ => .pure _, fun _ _ => .pure _⟩
  | replaceTagValues | mapClosure =>
      exact ⟨fun _ => .ofClosure _, fun _ => .pure _, fun _ _ => .pure _⟩
  | byPredicate | acceptClosure =>
      exact ⟨fun _ => .pure _, fun _ => .ofClosure _, fun _ _ => .pure _⟩
  | configureClosure => exact ⟨fun _ => .pure _, fun _ => .pure _, fun _ _ => .ofClosure _⟩
  | passThrough => exact .passThrough
  | metricCap place max =>
      have own := among _ List.mem_cons_self
      refine ⟨fun _ => .pure _, fun id => ?_, fun _ _ => .pure _⟩
      refine MetricCap.settles_accept (Store.advances_note id own) fun s t later noted => ?_
      refine Sum.inl.inj (later.stays apart own ?_)
      simp only [Limiter.place, Limiter.note, Store.recordAt, Cell.get_put, noted]
  | tagCap place limit overflow ih =>
      have own := among _ List.mem_cons_self
      have behind := ih fun l hl => among l (List.mem_cons_of_mem _ hl)
      refine ⟨fun _ => .pure _, fun id => ?_,
        fun id config => TagCap.settles_configure (behind.configure id config)⟩
      refine TagCap.settles_accept (fun v value s => ?_) (fun v value s t later noted => ?_)
        (behind.accept id)
      · have step := Store.advances_note id own s
        simp only [Limiter.note, value] at step
        exact step
      · refine Sum.inr.inj (later.stays apart own ?_)
        simp only [Limiter.place, Limiter.note, value, Store.recordAt, Cell.get_put, noted]
  | boxed inner ih => exact ih among
  | chain filters ih =>
      rw [toFilter_chain]
      refine Chain.settles fun f' hf' => ?_
      obtain ⟨f, hf, rfl⟩ := List.mem_map.1 hf'
      exact ih f hf fun l hl => among l (mem_limiters_chain hf hl)
  | watched label inner ih => exact (ih among).watched label

/-- **Registering twice.** A chain of filters, in which limiters may stand behind each other and in
    several places, finds its limiters in whatever state. A meter that is registered twice in a row
    gets the same response both times, which is a registration if no closure panics, and the second
    time leaves the records of all limiters as the first time left them. -/
theorem register_twice (filters : List StockFilter)
    (apart : Limiter.Apart (limitersOfAll filters)) (w : World Store) (id : MeterId)
    (config : DistributionConfig) :
    let chain := Chain.toFilter (toChain filters)
    let first := chain.respond (.register id config) w
    let second := chain.respond (.register id config) first.2
    second.1 = first.1 ∧ second.2.state = first.2.state ∧
      (NonePanics filters → ∃ r, first.1 = .registration r) := by
  intro chain first second
  have settles : chain.Settles (Store.Advances (limitersOfAll filters)) :=
    settles_toFilter (f := .chain filters) apart fun _ h => h
  have := Store.isPreorder_advances apart
  have told := chain.respond_register_outcome id config
  have left : first.2 = (chain.register id config).worldAfter w := congrArg Prod.snd (told w)
  obtain ⟨same, still⟩ := settles.register id config w first.2 (congrArg World.state left.symm)
  refine ⟨?_, ?_, fun calm => ?_⟩
  · show (chain.respond (.register id config) first.2).1
      = (chain.respond (.register id config) w).1
    rw [told, told, same]
  · exact (congrArg (fun answered => answered.2.state) (told first.2)).trans still
  · have returns : chain.Returns := returns_toFilter (f := .chain filters) calm
    obtain ⟨r, ran⟩ := returns.register id config w
    refine ⟨r, (congrArg Prod.fst (told w)).trans ?_⟩
    rw [ran]

/-- A cap stands behind a tag cap and once more in a nested chain. The second table is one value too
    many, which brings it to the cap and its bound into force, and one series too many: it is denied
    and bounded alike both times. -/
theorem register_twice_shared_cap :
    let cap : StockFilter := .metricCap 0 1
    let bound : StockFilter := .expectedBound "db" .timer { bufferLength := some 3 }
    let filters : List StockFilter :=
      [.tagCap 0 ⟨"db.calls", "table", 1⟩ (.boxed (.chain [cap, bound])), .chain [.chain [], cap]]
    let users : MeterId := ⟨"db.calls", .timer, [⟨"table", "users"⟩], none, none⟩
    let orders : MeterId := ⟨"db.calls", .timer, [⟨"table", "orders"⟩], none, none⟩
    let chain := Chain.toFilter (toChain filters)
    let first := chain.respond (.register orders .none)
      (chain.after [.register users .none] (.fresh {}))
    let second := chain.respond (.register orders .none) first.2
    Limiter.Apart (limitersOfAll filters) ∧ NonePanics filters ∧
    first.1 = .registration ⟨orders, .deny, some { bufferLength := some 3 }⟩ ∧
    second.1 = first.1 ∧ second.2.state = first.2.state := by
  intro cap bound filters users orders
  have apart : Limiter.Apart (limitersOfAll filters) := by decide
  have twice := register_twice filters apart
    ((Chain.toFilter (toChain filters)).after [.register users .none] (.fresh {})) orders .none
  dsimp only at twice ⊢
  obtain ⟨same, still, -⟩ := twice
  refine ⟨apart, ⟨⟨trivial, trivial, trivial⟩, ⟨trivial, trivial, trivial⟩, trivial⟩, ?_,
    same, still⟩
  decide +kernel

end StockFilter

end MeterGate
