import MeterGate.Proofs.MetricCap
import MeterGate.Proofs.TagCap
import Mathlib.Order.RelClasses

set_option autoImplicit false

/-! # Computations that settle

A limiter that has noted an id has nothing to learn from the same id: from then on it gives the same
answer and leaves its record alone, as long as the record is not disturbed. Of a computation of
which this can be said we say that it *settles* (`Eval.Settles`), along the relation of memories
that says what may happen in between. One computation after another settles if each of them does,
and so do chains if their filters do (`Chain.settles`): mapping whatever happens to the memory,
admission along what may be done about the same id, and configuration as long as the memory stays
the same. A registration is these three in a row, and can be done twice (`Filter.Settles.register`).
-/

namespace MeterGate

/-! ## Computations that settle -/

namespace Eval

variable {σ α β : Type}

/-- The memory may have become any other. -/
def Anyhow (_ _ : σ) : Prop := True

instance : IsPreorder σ Anyhow where
  refl _ := trivial
  trans _ _ _ _ _ := trivial

/-- Wherever the memory goes along a relation after a computation, the computation done once more
    gives the same and leaves the memory alone. -/
def Repeats (R : σ → σ → Prop) (x : Eval σ α) : Prop :=
  ∀ w u : World σ, R (x.worldAfter w).state u.state →
    x.outcome u = x.outcome w ∧ (x.worldAfter u).state = u.state

/-- A computation settles along a relation: it leads along it, and can be repeated after whatever
    else leads along it. -/
structure Settles (R : σ → σ → Prop) (x : Eval σ α) : Prop where
  moves : x.Moves R
  again : x.Repeats R

namespace Settles

variable {R : σ → σ → Prop}

section Refl

variable [Std.Refl R]

theorem pure (a : α) : Settles R (pure a : Eval σ α) := ⟨.pure a, fun _ _ _ => ⟨rfl, rfl⟩⟩

theorem log (e : Event) : Settles R (log e : Eval σ Unit) := ⟨.log e, fun _ _ _ => ⟨rfl, rfl⟩⟩

theorem watch (c : Call) : Settles R (watch c : Eval σ Unit) :=
  ⟨.watch c, fun _ _ _ => ⟨rfl, rfl⟩⟩

theorem ofClosure (answer : Except Panic α) : Settles R (ofClosure answer : Eval σ α) := by
  refine ⟨.ofClosure answer, fun _ _ _ => ?_⟩
  cases answer <;> exact ⟨rfl, rfl⟩

end Refl

/-- To look at a cell settles as long as the memory stays the same. -/
theorem read (c : Cell σ α) : Settles Eq (read c) := by
  refine ⟨.read c, fun w u same => ⟨?_, rfl⟩⟩
  have same : w.state = u.state := same
  simp only [outcome, read_apply, same]

/-- One computation after another settles if each of them does: the second one disturbs the first
    one only along the relation. -/
theorem bind [IsTrans σ R] {x : Eval σ α} {f : α → Eval σ β} (hx : Settles R x)
    (hf : ∀ a, Settles R (f a)) : Settles R (x >>= f) := by
  refine ⟨hx.moves.bind fun a => (hf a).moves, fun w u later => ?_⟩
  rw [worldAfter_bind_outcome] at later
  rw [outcome_bind, outcome_bind, worldAfter_bind_outcome]
  cases first : x.outcome w with
  | error p =>
      simp only [first] at later
      obtain ⟨same, still⟩ := hx.again w u later
      simp only [same, first, still, and_self]
  | ok a =>
      simp only [first] at later
      obtain ⟨same, still⟩ := hx.again w u (trans_of R ((hf a).moves _) later)
      rw [← still] at later
      obtain ⟨same', still'⟩ := (hf a).again _ _ later
      simp only [same, first, same', still', still, and_self]

end Settles

theorem Composes.settles (R : σ → σ → Prop) [IsPreorder σ R] : Composes (Settles R) :=
  ⟨.pure, .log, .watch, .bind⟩

/-! ## Computations done twice -/

namespace Repeats

/-- What settles along some relation, and then looks at the memory only, can be done twice. -/
theorem of_settles {R : σ → σ → Prop} [Std.Refl R] {x : Eval σ α} {f : α → Eval σ β}
    (hx : Settles R x) (hf : ∀ a, Settles Eq (f a)) : Repeats Eq (x >>= f) := by
  intro w u there
  rw [worldAfter_bind_outcome] at there
  rw [outcome_bind, outcome_bind, worldAfter_bind_outcome]
  cases first : x.outcome w with
  | error p =>
      simp only [first] at there
      obtain ⟨same, still⟩ := hx.again w u (there ▸ refl_of R _)
      simp only [same, first, still, and_self]
  | ok a =>
      simp only [first] at there
      -- the second computation leaves the memory as it finds it, so the first one finds it settled
      have found : (x.worldAfter w).state = u.state := ((hf a).moves (x.worldAfter w)).trans there
      obtain ⟨same, still⟩ := hx.again w u (found ▸ refl_of R _)
      obtain ⟨same', still'⟩ := (hf a).again _ (x.worldAfter u) (there.trans still.symm)
      simp only [same, first, same', still', still, and_self]

/-- What has nothing to do with the memory does not stand in the way of doing the rest twice. -/
theorem bind {x : Eval σ α} {f : α → Eval σ β} (hx : Settles Anyhow x)
    (hf : ∀ a, Repeats Eq (f a)) : Repeats Eq (x >>= f) := by
  intro w u there
  rw [worldAfter_bind_outcome] at there
  rw [outcome_bind, outcome_bind, worldAfter_bind_outcome]
  obtain ⟨same, still⟩ := hx.again w u trivial
  cases first : x.outcome w with
  | error p => simp only [same, first, still, and_self]
  | ok a =>
      simp only [first] at there
      obtain ⟨same', still'⟩ := hf a _ (x.worldAfter u) (there.trans still.symm)
      simp only [same, first, same', still', still, and_self]

end Repeats

end Eval

/-! ## Limiters settle -/

/-- A computation that takes a note in a cell, and then answers by what the cell holds, settles if
    nothing is new to the cell that was noted in it, and what comes later does not disturb it. -/
theorem Eval.Settles.of_note {σ α β : Type} [DecidableEq α] {R : σ → σ → Prop} [IsPreorder σ R]
    {x : Eval σ β} {cell : Cell σ α} {note : α → α} {answer : α → Eval σ β}
    (ran : ∀ w : World σ, ∃ noted : World σ,
      noted.state = (w.put cell (note (cell.get w.state))).state ∧
      x w = answer (note (cell.get w.state)) noted)
    (note_note : ∀ a, note (note a) = note a)
    (step : ∀ s, R s (cell.put (note (cell.get s)) s))
    (stays : ∀ s t, R s t → note (cell.get s) = cell.get s → cell.get t = cell.get s)
    (settles : ∀ a, (answer a).Settles R) : x.Settles R := by
  -- the computation goes on as its answer does, once the note is taken
  have goes : ∀ w, ∃ noted : World σ, R w.state noted.state ∧
      cell.get noted.state = note (cell.get w.state) ∧
      (cell.get w.state = note (cell.get w.state) → noted.state = w.state) ∧
      x.outcome w = (answer (note (cell.get w.state))).outcome noted ∧
      x.worldAfter w = (answer (note (cell.get w.state))).worldAfter noted := by
    intro w
    obtain ⟨noted, state, ran⟩ := ran w
    refine ⟨noted, ?_, ?_, fun held => ?_, ?_, ?_⟩
    · rw [state]
      exact World.moves_put (step w.state)
    · rw [state, World.get_put]
    · rw [state, World.put_of_get held]
    · unfold Eval.outcome
      rw [ran]
    · unfold Eval.worldAfter
      rw [ran]
  refine ⟨fun w => ?_, fun w u later => ?_⟩
  · obtain ⟨noted, led, -, -, -, world⟩ := goes w
    rw [world]
    exact trans_of R led ((settles _).moves noted)
  · obtain ⟨noted, -, noted_get, -, outcome, world⟩ := goes w
    obtain ⟨noted', -, -, unmoved, outcome', world'⟩ := goes u
    rw [world] at later
    have held := stays noted.state u.state (trans_of R ((settles _).moves noted) later)
      (by rw [noted_get, note_note])
    rw [noted_get] at held
    rw [held, note_note] at unmoved outcome' world'
    rw [outcome, outcome', world', ← unmoved rfl]
    exact (settles _).again noted noted' (unmoved rfl ▸ later)

section

variable {σ : Type}

/-- How a metric cap answers once an id is noted. -/
def MetricCap.answerOf (max : Nat) (after : MetricCap.Record) : Eval σ Reply :=
  pure (if after.isOver max then .deny else .neutral)

/-- A metric cap notes the series of an id, and answers by what it holds then. -/
theorem MetricCap.accept_noted (cell : Cell σ MetricCap.Record) (max : Nat) (id : MeterId)
    (w : World σ) :
    ∃ noted : World σ,
      noted.state = (w.put cell ((cell.get w.state).offer max id.series)).state ∧
      accept cell max id w
        = answerOf max ((cell.get w.state).offer max id.series) noted := by
  rw [accept_apply]
  unfold answerOf
  by_cases exceeds : ((cell.get w.state).offer max id.series).isOver max = true
  · rw [if_pos exceeds, if_pos exceeds]
    exact ⟨(w.put cell _).log (denial max id (cell.get w.state).tripped), rfl, rfl⟩
  · rw [if_neg exceeds, if_neg exceeds]
    exact ⟨w.put cell _, rfl, rfl⟩

/-- How a tag cap goes on once an id is noted. -/
def TagCap.answerOf (limit : TagCap.Limit) (overflow : Filter σ) (id : MeterId)
    (after : TagCap.Record) : Eval σ Reply :=
  if after.isOver limit.max then overflow.accept id else pure .neutral

/-- A tag cap notes the value that an id brings, and by what it holds then it passes the id or
    leaves it to its overflow filter. -/
theorem TagCap.accept_noted (cell : Cell σ TagCap.Record) (limit : TagCap.Limit)
    (overflow : Filter σ) {id : MeterId} {v : String} (h : limit.valueOf? id = some v)
    (w : World σ) :
    ∃ noted : World σ, noted.state = (w.put cell ((cell.get w.state).offer limit.max v)).state ∧
      accept cell limit overflow id w
        = answerOf limit overflow id ((cell.get w.state).offer limit.max v) noted := by
  rw [accept_of_some h]
  unfold answerOf
  by_cases exceeds : ((cell.get w.state).offer limit.max v).isOver limit.max = true
  · rw [if_pos exceeds, if_pos exceeds]
    refine ⟨_, ?_, rfl⟩
    split <;> rfl
  · rw [if_neg exceeds, if_neg exceeds]
    exact ⟨w.put cell _, rfl, rfl⟩

variable {R : σ → σ → Prop} [IsPreorder σ R]

/-- A metric cap settles about an id, if its record is not disturbed once the id is noted. -/
theorem MetricCap.settles_accept {cell : Cell σ MetricCap.Record} {max : Nat} {id : MeterId}
    (step : ∀ s, R s (cell.put ((cell.get s).offer max id.series) s))
    (stays : ∀ s t, R s t → (cell.get s).offer max id.series = cell.get s →
      cell.get t = cell.get s) :
    (MetricCap.accept cell max id).Settles R :=
  .of_note (accept_noted cell max id) (Record.offer_offer max id.series) step stays
    fun _ => .pure _

/-- A tag cap settles about an id, if so does its overflow filter and its record is not disturbed
    once the value of the id is noted. -/
theorem TagCap.settles_accept {cell : Cell σ TagCap.Record} {limit : TagCap.Limit}
    {overflow : Filter σ} {id : MeterId}
    (step : ∀ v, limit.valueOf? id = some v →
      ∀ s, R s (cell.put ((cell.get s).offer limit.max v) s))
    (stays : ∀ v, limit.valueOf? id = some v →
      ∀ s t, R s t → (cell.get s).offer limit.max v = cell.get s → cell.get t = cell.get s)
    (h : (overflow.accept id).Settles R) : (TagCap.accept cell limit overflow id).Settles R := by
  cases value : limit.valueOf? id with
  | none =>
      have passes : accept cell limit overflow id = pure .neutral := by
        simp only [accept, value]
      rw [passes]
      exact .pure _
  | some v =>
      refine .of_note (accept_noted cell limit overflow value) (Record.offer_offer limit.max v)
        (step v value) (stays v value) fun after => ?_
      unfold answerOf
      split
      · exact h
      · exact .pure _

theorem TagCap.settles_configure {cell : Cell σ TagCap.Record} {limit : TagCap.Limit}
    {overflow : Filter σ} {id : MeterId} {config : DistributionConfig}
    (h : (overflow.configure id config).Settles Eq) :
    (TagCap.configure cell limit overflow id config).Settles Eq := by
  refine (Eval.Settles.read cell).bind fun record => ?_
  split
  · exact h
  · exact .pure _

end

/-! ## Filters -/

namespace Filter

variable {σ : Type} {R : MeterId → σ → σ → Prop}

/-- The operations of a filter settle: mapping whatever happens to the memory, admission along what
    may be done about the same id, and configuration as long as the memory stays the same. -/
structure Settles (R : MeterId → σ → σ → Prop) (f : Filter σ) : Prop where
  map : ∀ id, (f.map id).Settles Eval.Anyhow
  accept : ∀ id, (f.accept id).Settles (R id)
  configure : ∀ id config, (f.configure id config).Settles Eq

section

variable [∀ id, IsPreorder σ (R id)]

theorem Settles.passThrough : (passThrough : Filter σ).Settles R :=
  ⟨fun _ => .pure _, fun _ => .pure _, fun _ _ => .pure _⟩

theorem Settles.watched {f : Filter σ} (h : f.Settles R) (label : String) :
    (watched label f).Settles R :=
  ⟨fun id => (Eval.Settles.watch _).bind fun _ => h.map id,
    fun id => (Eval.Settles.watch _).bind fun _ => h.accept id,
    fun id config => (Eval.Settles.watch _).bind fun _ => h.configure id config⟩

theorem Settles.register {f : Filter σ} (h : f.Settles R) (id : MeterId)
    (config : DistributionConfig) : (f.register id config).Repeats Eq := by
  refine .bind (h.map id) fun mapped => .of_settles (h.accept mapped) fun reply => ?_
  refine .bind ?_ fun config => (Eval.Settles.log _).bind fun _ => .pure _
  unfold configureIfUsed
  split
  · exact (h.configure mapped config).bind fun _ => .pure _
  · exact .pure _

end

end Filter

namespace Chain

variable {σ : Type}

theorem settles {R : MeterId → σ → σ → Prop} [∀ id, IsPreorder σ (R id)] {chain : Chain σ}
    (h : ∀ f ∈ chain, f.Settles R) : (toFilter chain).Settles R where
  map := map_of (.settles _) fun f hf => (h f hf).map
  accept id := accept_of (.settles _) fun f hf => (h f hf).accept id
  configure id := configure_of (.settles _) fun f hf => (h f hf).configure id

end Chain

end MeterGate
