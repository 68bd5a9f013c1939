import MeterGate.Proofs.Course
import MeterGate.Filter.Limiter
import MeterGate.Store
import Mathlib.Data.Finset.Card
import Mathlib.Data.Finset.Lattice.Lemmas

set_option autoImplicit false

/-! # A metric cap over a run

A cap is offered series one after another. What it holds then depends on the series alone
(`Record.ofSeries`), and `Record.Reads` says how: as long as no more than `max` distinct series
came, the record holds exactly these; the first one too many is recorded as well, and from then on
the record is closed. Every reply can be read off the number of distinct series
(`respond_worldAfter`), which only grows, and so can the replies to a whole run (`course_map_fst`).
-/

namespace MeterGate

/-- How many distinct series there are among ids. -/
def distinctSeries (ids : List MeterId) : Nat := (ids.map MeterId.series).toFinset.card

theorem distinctSeries_mono {xs ys : List MeterId} (h : ∀ id ∈ xs, id ∈ ys) :
    distinctSeries xs ≤ distinctSeries ys := by
  apply Finset.card_le_card
  intro s hs
  simp only [List.mem_toFinset, List.mem_map] at hs ⊢
  obtain ⟨id, hid, rfl⟩ := hs
  exact ⟨id, h id hid, rfl⟩

namespace MetricCap

/-! ## The record of a list of series -/

namespace Record

/-- What a cap holds after series were offered to it in order. -/
def ofSeries (max : Nat) (ss : List Series) : Record := ss.foldl (fun r s => r.offer max s) {}

theorem ofSeries_concat (max : Nat) (ss : List Series) (s : Series) :
    ofSeries max (ss ++ [s]) = (ofSeries max ss).offer max s := by
  simp [ofSeries]

theorem insert_of_isOver {max : Nat} {r : Record} (h : r.isOver max = true) (s : Series) :
    r.insert max s = r := by simp [insert, h]

/-- A record that is over the limit and has tripped is closed. -/
theorem offer_of_isOver {max : Nat} {r : Record} (h : r.isOver max = true)
    (ht : r.tripped = true) (s : Series) : r.offer max s = r := by
  cases r with
  | mk seen tripped =>
      subst ht
      simp [offer, insert_of_isOver h]

/-- What a record says about the series that were offered. -/
structure Reads (max : Nat) (ss : List Series) (r : Record) : Prop where
  nodup : r.seen.Nodup
  complete : ss.toFinset.card ≤ max → r.seen.toFinset = ss.toFinset
  length_seen : r.seen.length = min ss.toFinset.card (max + 1)
  tripped_iff : r.tripped = true ↔ max < ss.toFinset.card

namespace Reads

variable {max : Nat} {ss : List Series} {r : Record}

theorem isOver_iff (h : Reads max ss r) : r.isOver max = true ↔ max < ss.toFinset.card := by
  simp only [isOver, decide_eq_true_eq, h.length_seen]
  omega

/-- One series more: while the record is not over the limit it takes in what is new to it, and then
    it stays as it is. -/
theorem offer (h : Reads max ss r) (s : Series) : Reads max (ss ++ [s]) (r.offer max s) := by
  have grow : ss.toFinset.card ≤ (ss ++ [s]).toFinset.card :=
    Finset.card_le_card (by simp)
  by_cases hd : max < ss.toFinset.card
  · -- the record is closed
    have exceeds := h.isOver_iff.2 hd
    rw [offer_of_isOver exceeds (h.tripped_iff.2 hd)]
    refine ⟨h.nodup, fun hle => absurd hle (by omega), ?_, ?_⟩
    · rw [h.length_seen]
      omega
    · simp only [h.tripped_iff.2 hd, true_iff]
      omega
  · -- the record has all series so far, and takes in this one if it is new
    have same : r.seen.toFinset = ss.toFinset := h.complete (by omega)
    have len : r.seen.length = ss.toFinset.card := by rw [h.length_seen]; omega
    have under : r.isOver max = false := by simp [isOver, len]; omega
    have calm : r.tripped = false := by
      rw [Bool.eq_false_iff, ne_eq, h.tripped_iff]
      exact hd
    have mem_iff : s ∈ r.seen ↔ s ∈ ss := by
      rw [← List.mem_toFinset, same, List.mem_toFinset]
    by_cases hs : s ∈ r.seen
    · have kept : r.insert max s = r := by simp [insert, hs]
      have known : (ss ++ [s]).toFinset = ss.toFinset := by
        simpa using mem_iff.1 hs
      refine ⟨?_, ?_, ?_, ?_⟩ <;> simp only [Record.offer, kept, known, calm, under]
      · exact h.nodup
      · exact h.complete
      · exact h.length_seen
      · simpa using hd
    · have grown : r.insert max s = { r with seen := r.seen ++ [s] } := by
        simp [insert, under, hs]
      have new : (ss ++ [s]).toFinset.card = ss.toFinset.card + 1 := by
        have hcard := Finset.card_insert_of_notMem
          (fun hmem => hs (mem_iff.2 (List.mem_toFinset.1 hmem)))
        rw [← hcard]
        congr 1
        ext t
        simp
      refine ⟨?_, ?_, ?_, ?_⟩ <;> simp only [Record.offer, grown, new, calm]
      · exact h.nodup.append (List.nodup_singleton s) (List.disjoint_singleton.2 hs)
      · intro _
        simp [same]
      · simp only [List.length_append, List.length_singleton, len]
        omega
      · simp only [isOver, List.length_append, List.length_singleton, len, Bool.false_or,
          decide_eq_true_eq]

end Reads

theorem reads_ofSeries (max : Nat) (ss : List Series) : Reads max ss (ofSeries max ss) := by
  induction ss using List.reverseRecOn with
  | nil => exact ⟨List.nodup_nil, fun _ => rfl, by simp [ofSeries], by simp [ofSeries]⟩
  | append_singleton ss s ih =>
      rw [ofSeries_concat]
      exact ih.offer s

/-- The first series too many is still recorded. -/
theorem Reads.complete_offer {max : Nat} {ss : List Series} {r : Record} (h : Reads max ss r)
    (hle : ss.toFinset.card ≤ max) (s : Series) :
    (r.offer max s).seen.toFinset = (ss ++ [s]).toFinset := by
  have under : r.isOver max = false := by
    rw [Bool.eq_false_iff, ne_eq, h.isOver_iff]
    omega
  have same := h.complete hle
  show (r.insert max s).seen.toFinset = _
  by_cases hs : s ∈ r.seen
  · have hmem : s ∈ ss := by rwa [← List.mem_toFinset, ← same, List.mem_toFinset]
    have known : Insert.insert s ss.toFinset = ss.toFinset := by simpa using hmem
    simp [insert, under, hs, same, known]
  · simp [insert, under, hs, same]

end Record

/-! ## One call -/

variable {σ : Type}

/-- What a cap answers, records and reports about one id. -/
theorem accept_apply (cell : Cell σ Record) (max : Nat) (id : MeterId) (w : World σ) :
    accept cell max id w =
      let before := cell.get w.state
      let after := before.offer max id.series
      if after.isOver max then
        .ok .deny ((w.put cell after).log (denial max id before.tripped))
      else .ok .neutral (w.put cell after) := by
  simp only [accept, Eval.bind_apply, Eval.read_apply, Eval.write_apply]
  split <;> rfl

theorem level_denial (max : Nat) (id : MeterId) (trippedBefore : Bool) :
    (denial max id trippedBefore).level = if trippedBefore then .debug else .warn := by
  unfold denial
  split <;> rfl

/-! ## Replies by the number of series -/

/-- The replies to ids, each by the number of distinct series up to it. -/
def repliesTo (max : Nat) (ids : List MeterId) : List Reply :=
  (List.range ids.length).map fun i =>
    if distinctSeries (ids.take (i + 1)) ≤ max then .neutral else .deny

theorem repliesTo_concat (max : Nat) (ids : List MeterId) (id : MeterId) :
    repliesTo max (ids ++ [id])
      = repliesTo max ids ++ [if distinctSeries (ids ++ [id]) ≤ max then .neutral else .deny] := by
  simp only [repliesTo, List.length_append, List.length_singleton, List.range_succ, List.map_append,
    List.map_singleton]
  congr 1
  · apply List.map_congr_left
    intro i hi
    rw [List.take_append_of_le_length (List.mem_range.1 hi)]
  · rw [List.take_of_length_le (by simp)]

theorem length_repliesTo (max : Nat) (ids : List MeterId) :
    (repliesTo max ids).length = ids.length := by simp [repliesTo]

theorem take_repliesTo (max : Nat) (ids : List MeterId) (i : Nat) :
    (repliesTo max ids).take i = repliesTo max (ids.take i) := by
  simp only [repliesTo, ← List.map_take, List.take_range, List.length_take]
  apply List.map_congr_left
  intro j hj
  rw [List.mem_range] at hj
  rw [List.take_take, Nat.min_eq_left (by omega)]

theorem distinctSeries_concat_le (ids : List MeterId) (id : MeterId) :
    distinctSeries ids ≤ distinctSeries (ids ++ [id]) :=
  distinctSeries_mono fun _ h => List.mem_append_left _ h

theorem distinctSeries_concat_le_succ (ids : List MeterId) (id : MeterId) :
    distinctSeries (ids ++ [id]) ≤ distinctSeries ids + 1 := by
  unfold distinctSeries
  rw [List.map_append, List.toFinset_append]
  exact (Finset.card_union_le _ _).trans (by simp)

theorem deny_mem_repliesTo (max : Nat) (ids : List MeterId) :
    .deny ∈ repliesTo max ids ↔ max < distinctSeries ids := by
  induction ids using List.reverseRecOn with
  | nil => simp [repliesTo, distinctSeries]
  | append_singleton ids id ih =>
      have grow := distinctSeries_concat_le ids id
      rw [repliesTo_concat, List.mem_append, ih, List.mem_singleton]
      split
      · simp only [reduceCtorEq, or_false]
        omega
      · simp only [or_true, true_iff]
        omega

/-- The ids that a cap was neutral on. -/
def neutralAmong (ids : List MeterId) (replies : List Reply) : List MeterId :=
  ((ids.zip replies).filter (·.2 = .neutral)).map (·.1)

theorem neutralAmong_concat (max : Nat) (ids : List MeterId) (id : MeterId) :
    neutralAmong (ids ++ [id]) (repliesTo max (ids ++ [id]))
      = neutralAmong ids (repliesTo max ids)
        ++ if distinctSeries (ids ++ [id]) ≤ max then [id] else [] := by
  rw [repliesTo_concat, neutralAmong, List.zip_append (length_repliesTo max ids).symm]
  split <;> simp [neutralAmong]

/-- No more than `max` series are ever let through, and all of them as long as they are no more. -/
theorem distinctSeries_neutralAmong (max : Nat) (ids : List MeterId) :
    (distinctSeries ids ≤ max → neutralAmong ids (repliesTo max ids) = ids)
      ∧ distinctSeries (neutralAmong ids (repliesTo max ids)) = min (distinctSeries ids) max := by
  induction ids using List.reverseRecOn with
  | nil => simp [neutralAmong, repliesTo, distinctSeries]
  | append_singleton ids id ih =>
      obtain ⟨whole, count⟩ := ih
      have grow := distinctSeries_concat_le ids id
      have step := distinctSeries_concat_le_succ ids id
      rw [neutralAmong_concat]
      by_cases h : distinctSeries (ids ++ [id]) ≤ max
      · rw [if_pos h, whole (by omega)]
        exact ⟨fun _ => rfl, by omega⟩
      · rw [if_neg h, List.append_nil, count]
        exact ⟨fun hle => absurd hle h, by omega⟩

/-! ## Runs -/

/-- The world after a cap was asked about ids in order. -/
def worldAfter (cell : Cell σ Record) (max : Nat) (ids : List MeterId) (w : World σ) : World σ :=
  (Filter.metricCap cell max).after (ids.map .accept) w

theorem worldAfter_concat (cell : Cell σ Record) (max : Nat) (ids : List MeterId) (id : MeterId)
    (w : World σ) :
    worldAfter cell max (ids ++ [id]) w
      = ((Filter.metricCap cell max).respond (.accept id) (worldAfter cell max ids w)).2 := by
  simp only [worldAfter, List.map_append, List.map_singleton, Filter.after_concat]

theorem respond_accept_apply (cell : Cell σ Record) (max : Nat) (id : MeterId) (w : World σ) :
    (Filter.metricCap cell max).respond (.accept id) w =
      let before := cell.get w.state
      let after := before.offer max id.series
      if after.isOver max then
        (.reply .deny, (w.put cell after).log (denial max id before.tripped))
      else (.reply .neutral, w.put cell after) := by
  rw [Filter.respond_accept]
  simp only [Filter.metricCap, accept_apply]
  by_cases h : ((cell.get w.state).offer max id.series).isOver max = true
  · simp [h]
  · simp [h]

theorem get_respond_accept (cell : Cell σ Record) (max : Nat) (id : MeterId) (w : World σ) :
    cell.get ((Filter.metricCap cell max).respond (.accept id) w).2.state
      = (cell.get w.state).offer max id.series := by
  rw [respond_accept_apply]
  simp only
  split <;> simp

/-- What a cap holds depends on the series that came, and on nothing else in the memory. -/
theorem get_worldAfter (cell : Cell σ Record) (max : Nat) (w : World σ)
    (blank : cell.get w.state = {}) (ids : List MeterId) :
    cell.get (worldAfter cell max ids w).state = .ofSeries max (ids.map MeterId.series) := by
  induction ids using List.reverseRecOn with
  | nil => exact blank
  | append_singleton ids id ih =>
      rw [worldAfter_concat, get_respond_accept, ih, List.map_append, List.map_singleton,
        Record.ofSeries_concat]

theorem reads_worldAfter (cell : Cell σ Record) (max : Nat) (w : World σ)
    (blank : cell.get w.state = {}) (ids : List MeterId) :
    (cell.get (worldAfter cell max ids w).state).Reads max (ids.map MeterId.series) := by
  rw [get_worldAfter cell max w blank]
  exact Record.reads_ofSeries max _

/-- The reply after a run, and what it reports: nothing if it is neutral, else one event, which is a
    warning if it is the first denial. -/
theorem respond_worldAfter (cell : Cell σ Record) (max : Nat) (w : World σ)
    (blank : cell.get w.state = {}) (ids : List MeterId) (id : MeterId) :
    let now := worldAfter cell max ids w
    let answered := (Filter.metricCap cell max).respond (.accept id) now
    if distinctSeries (ids ++ [id]) ≤ max then
      answered.1 = .reply .neutral ∧ answered.2.events = now.events
    else
      answered.1 = .reply .deny ∧ answered.2.events
        = now.events ++ [denial max id (decide (max < distinctSeries ids))] := by
  intro now answered
  have before : (cell.get now.state).Reads max (ids.map MeterId.series) :=
    reads_worldAfter cell max w blank ids
  have after : ((cell.get now.state).offer max id.series).isOver max = true
      ↔ max < distinctSeries (ids ++ [id]) := by
    rw [(before.offer id.series).isOver_iff]
    simp [distinctSeries]
  have tripped : (cell.get now.state).tripped = decide (max < distinctSeries ids) := by
    rw [Bool.eq_iff_iff, before.tripped_iff, decide_eq_true_iff]
    rfl
  simp only [answered, respond_accept_apply]
  split
  · next h =>
      have under : ((cell.get now.state).offer max id.series).isOver max = false := by
        rw [Bool.eq_false_iff, ne_eq, after]
        omega
      simp [under]
  · next h =>
      have exceeds := after.2 (by omega)
      simp [exceeds, tripped]

theorem course_map_fst (cell : Cell σ Record) (max : Nat) (w : World σ)
    (blank : cell.get w.state = {}) (ids : List MeterId) :
    ((Filter.metricCap cell max).course (ids.map .accept) w).map Prod.fst
      = (repliesTo max ids).map .reply := by
  induction ids using List.reverseRecOn with
  | nil => rfl
  | append_singleton ids id ih =>
      have reply := respond_worldAfter cell max w blank ids id
      rw [List.map_append, List.map_singleton, Filter.course_concat, List.map_append, ih,
        repliesTo_concat, List.map_append]
      congr 1
      simp only [List.map_singleton, List.cons.injEq, and_true]
      split at reply
      · next h => rw [if_pos h]; exact reply.1
      · next h => rw [if_neg h]; exact reply.1

/-- **A metric cap over a run.** A cap that has seen nothing yet is asked about ids in order. Each
    reply is neutral exactly as long as no more than `max` distinct series came. At any time the
    record, its size, its reading and its flag agree with the number of distinct series and with
    the replies so far; it takes in the first series that is denied and nothing after it. At most
    `max` series are ever let through. A denial is reported, with a warning the first time. -/
theorem metricCap_run (cell : Cell σ Record) (max : Nat) (w : World σ)
    (blank : cell.get w.state = {}) (ids : List MeterId) :
    ∃ replies : List Reply,
      ((Filter.metricCap cell max).course (ids.map .accept) w).map Prod.fst = replies.map .reply ∧
      (∀ i < ids.length, replies[i]? =
        some (if distinctSeries (ids.take (i + 1)) ≤ max then .neutral else .deny)) ∧
      (∀ i,
        let record := cell.get (worldAfter cell max (ids.take i) w).state
        let distinct := distinctSeries (ids.take i)
        record.seen.length = min distinct (max + 1) ∧
        (record.isOver max = true ↔ max < distinct) ∧
        (max < distinct ↔ .deny ∈ replies.take i) ∧
        (max < distinct ↔ record.tripped = true) ∧
        record.seen.Nodup ∧
        (.deny ∉ replies.take (i - 1) →
          record.seen.toFinset = ((ids.take i).map MeterId.series).toFinset)) ∧
      (∀ i id, ids[i]? = some id →
        let now := worldAfter cell max (ids.take i) w
        let next := worldAfter cell max (ids.take (i + 1)) w
        (.deny ∈ replies.take i → cell.get next.state = cell.get now.state) ∧
        ∃ emitted, next.events = now.events ++ emitted ∧
          emitted.map Event.level =
            if replies[i]? = some .neutral then []
            else if .deny ∈ replies.take i then [.debug]
            else [.warn]) ∧
      distinctSeries (neutralAmong ids replies) = min (distinctSeries ids) max := by
  refine ⟨repliesTo max ids, course_map_fst cell max w blank ids, ?_, ?_, ?_,
    (distinctSeries_neutralAmong max ids).2⟩
  · intro i hi
    simp [repliesTo, hi]
  · intro i record distinct
    have reads : record.Reads max ((ids.take i).map MeterId.series) :=
      reads_worldAfter cell max w blank (ids.take i)
    refine ⟨reads.length_seen, reads.isOver_iff, ?_, reads.tripped_iff.symm, reads.nodup, ?_⟩
    · rw [take_repliesTo, deny_mem_repliesTo]
    · intro calm
      rw [take_repliesTo, deny_mem_repliesTo, Nat.not_lt] at calm
      cases i with
      | zero => exact reads.complete (by simp)
      | succ i =>
          -- the latest id may be the one too many, so completeness is that of the id before it
          cases hid : ids[i]? with
          | none =>
              have short : ids.take (i + 1) = ids.take i := by simp [List.take_add_one, hid]
              exact reads.complete (by rw [short]; exact calm)
          | some id =>
              have split : ids.take (i + 1) = ids.take i ++ [id] := by
                simp [List.take_add_one, hid]
              have earlier := reads_worldAfter cell max w blank (ids.take i)
              have grown := earlier.complete_offer calm id.series
              rw [← get_respond_accept, ← worldAfter_concat, ← split] at grown
              rw [split, List.map_append]
              exact grown
  · intro i id hid now next
    have split : ids.take (i + 1) = ids.take i ++ [id] := by simp [List.take_add_one, hid]
    have hnext : next = ((Filter.metricCap cell max).respond (.accept id) now).2 := by
      rw [← worldAfter_concat, ← split]
    have reads : (cell.get now.state).Reads max ((ids.take i).map MeterId.series) :=
      reads_worldAfter cell max w blank (ids.take i)
    have hreply : (repliesTo max ids)[i]? =
        some (if distinctSeries (ids.take i ++ [id]) ≤ max then .neutral else .deny) := by
      have hi : i < ids.length := (List.getElem?_eq_some_iff.1 hid).1
      rw [← split]
      simp [repliesTo, hi]
    simp only [take_repliesTo, deny_mem_repliesTo, hreply]
    refine ⟨fun exceeds => ?_, ?_⟩
    · rw [hnext, get_respond_accept]
      exact Record.offer_of_isOver (reads.isOver_iff.2 exceeds) (reads.tripped_iff.2 exceeds) _
    · have answered := respond_worldAfter cell max w blank (ids.take i) id
      simp only at answered
      by_cases h : distinctSeries (ids.take i ++ [id]) ≤ max
      · rw [if_pos h] at answered
        refine ⟨[], ?_, by simp [h]⟩
        rw [List.append_nil]
        exact (congrArg World.events hnext).trans answered.2
      · rw [if_neg h] at answered
        refine ⟨_, (congrArg World.events hnext).trans answered.2, ?_⟩
        simp only [List.map_singleton, level_denial, h, if_false, decide_eq_true_eq]
        split <;> simp

/-- With room for one series, a second one is denied, and then the first one too. -/
theorem metricCap_run_one_then_two :
    (Store.metricCell 0).get (World.fresh ({} : Store)).state = {} ∧
    ((Filter.metricCap (Store.metricCell 0) 1).course
      ([⟨"m", .counter, [⟨"n", "1"⟩], none, none⟩, ⟨"m", .counter, [⟨"n", "2"⟩], none, none⟩,
        ⟨"m", .gauge, [⟨"n", "1"⟩], some "s", none⟩].map .accept) (.fresh {})).map Prod.fst
      = [.reply .neutral, .reply .deny, .reply .deny] := by
  refine ⟨rfl, ?_⟩
  obtain ⟨replies, course, reply, -⟩ := metricCap_run (Store.metricCell 0) 1 (.fresh {}) rfl
    [⟨"m", .counter, [⟨"n", "1"⟩], none, none⟩, ⟨"m", .counter, [⟨"n", "2"⟩], none, none⟩,
      ⟨"m", .gauge, [⟨"n", "1"⟩], some "s", none⟩]
  have length : replies.length = 3 := by
    have h := congrArg List.length course
    simpa [Filter.length_course] using h.symm
  have first := reply 0 (by decide)
  have second := reply 1 (by decide)
  have third := reply 2 (by decide)
  rw [if_pos (by decide)] at first
  rw [if_neg (by decide)] at second third
  obtain ⟨a, b, c, rfl⟩ := List.length_eq_three.1 length
  simp only [List.getElem?_cons_zero, List.getElem?_cons_succ, Option.some.injEq]
    at first second third
  rw [course, first, second, third]
  rfl

end MetricCap

end MeterGate
