import MeterGate.Proofs.MetricCap
import Std.Data.HashSet.Lemmas
import Mathlib.Data.List.Induction

set_option autoImplicit false

/-! # Sets of series

`==` compares ids by name and tag list and is an equivalence, and ids that it takes for equal put
the same into every hasher (`MeterId.feed_eq_of_beq`), so that a hash set finds them at the same
place. Therefore a set into which ids are put in order is told by their series alone: it contains an
id exactly if one of the same series was put in (`IdSet.contains_ofIds`), it has as many as there
are series (`IdSet.size_ofIds`), and an id is new to it exactly if no earlier one is of its series
(`IdSet.mem_ofIds_iff`). -/

namespace MeterGate

theorem MeterId.beq_iff_name_tags (a b : MeterId) :
    (a == b) = true ↔ a.name = b.name ∧ a.tags = b.tags := by
  rw [beq_iff, series, series, Series.mk.injEq]

/-! ## New ids in a list -/

/-- The id at a position is of another series than all before it. -/
def NewAt (ids : List MeterId) (i : Nat) : Prop :=
  ∃ id, ids[i]? = some id ∧
    ∀ earlier ∈ ids.take i, ¬ (earlier.name = id.name ∧ earlier.tags = id.tags)

theorem NewAt.lt_length {ids : List MeterId} {i : Nat} (new : NewAt ids i) : i < ids.length := by
  obtain ⟨id, found, -⟩ := new
  exact (List.getElem?_eq_some_iff.1 found).1

/-- An id at the end is new if none before it is equal to it, and it leaves the others as they
    are. -/
theorem newAt_concat (ids : List MeterId) (id : MeterId) (i : Nat) :
    NewAt (ids ++ [id]) i ↔
      NewAt ids i ∨ i = ids.length ∧ ∀ earlier ∈ ids, ¬ (earlier == id) = true := by
  rcases Nat.lt_trichotomy i ids.length with inside | rfl | beyond
  · rw [or_iff_left fun atEnd => inside.ne atEnd.1, NewAt, List.getElem?_append_left inside,
      List.take_append_of_le_length inside.le]
    rfl
  · have absent : ¬ NewAt ids ids.length := fun new => Nat.lt_irrefl _ new.lt_length
    rw [or_iff_right absent]
    simp [NewAt, MeterId.beq_iff_name_tags]
  · have absent : ¬ NewAt ids i := fun new => Nat.lt_asymm new.lt_length beyond
    have still : ¬ NewAt (ids ++ [id]) i := fun new => by
      have short := new.lt_length
      rw [List.length_append, List.length_singleton] at short
      omega
    exact iff_of_false still (not_or.2 ⟨absent, fun atEnd => beyond.ne' atEnd.1⟩)

namespace IdSet

variable {h : Hasher}

/-! ## One id more -/

theorem insertAll_cons (seen : IdSet h) (i : Nat) (id : MeterId) (rest : List MeterId) :
    insertAll seen i (id :: rest)
      = let later := insertAll (seen.insert id) (i + 1) rest
        (if seen.contains id then later.1 else i :: later.1, later.2) := by
  rw [insertAll, ← Std.HashSet.containsThenInsert_fst, ← Std.HashSet.containsThenInsert_snd]

/-- An id that comes last is reported if the set that the others make does not contain it. -/
theorem insertAll_concat (seen : IdSet h) (i : Nat) (ids : List MeterId) (id : MeterId) :
    insertAll seen i (ids ++ [id])
      = let earlier := insertAll seen i ids
        (earlier.1 ++ if earlier.2.contains id then [] else [i + ids.length],
          earlier.2.insert id) := by
  induction ids generalizing seen i with
  | nil =>
      rw [List.nil_append, insertAll_cons]
      rfl
  | cons first rest ih =>
      have count : i + 1 + rest.length = i + (first :: rest).length := by
        rw [List.length_cons]
        omega
      simp only [List.cons_append, insertAll_cons, ih, count]
      split <;> rfl

/-! ## All of them -/

theorem ofIds_concat (h : Hasher) (ids : List MeterId) (id : MeterId) :
    ofIds h (ids ++ [id])
      = ((ofIds h ids).1 ++ if (ofIds h ids).2.contains id then [] else [ids.length],
          (ofIds h ids).2.insert id) := by
  rw [ofIds, insertAll_concat, Nat.zero_add]
  rfl

theorem contains_ofIds (h : Hasher) (ids : List MeterId) (id : MeterId) :
    (ofIds h ids).2.contains id = true ↔ ∃ earlier ∈ ids, (earlier == id) = true := by
  induction ids using List.reverseRecOn with
  | nil => simp [ofIds, insertAll]
  | append_singleton ids last ih =>
      rw [ofIds_concat]
      simp only [Std.HashSet.contains_insert, Bool.or_eq_true, ih, List.mem_append,
        List.mem_singleton, or_and_right, exists_or, exists_eq_left]
      exact or_comm

/-- An id is new to the set exactly if it is of another series than all before it. -/
theorem mem_ofIds_iff (h : Hasher) (ids : List MeterId) (i : Nat) :
    i ∈ (ofIds h ids).1 ↔ NewAt ids i := by
  induction ids using List.reverseRecOn with
  | nil => simp [ofIds, insertAll, NewAt]
  | append_singleton ids id ih =>
      rw [newAt_concat, ← ih, ofIds_concat, List.mem_append]
      refine or_congr_right ?_
      by_cases known : (ofIds h ids).2.contains id = true
      · obtain ⟨earlier, member, same⟩ := (contains_ofIds h ids id).1 known
        rw [if_pos known]
        exact iff_of_false List.not_mem_nil fun atEnd => atEnd.2 earlier member same
      · have fresh : ∀ earlier ∈ ids, ¬ (earlier == id) = true := fun earlier member same =>
          known ((contains_ofIds h ids id).2 ⟨earlier, member, same⟩)
        rw [if_neg known, List.mem_singleton]
        exact (and_iff_left fresh).symm

/-- The new ids are reported in the order in which they came. -/
theorem pairwise_ofIds (h : Hasher) (ids : List MeterId) : (ofIds h ids).1.Pairwise (· < ·) := by
  induction ids using List.reverseRecOn with
  | nil => exact .nil
  | append_singleton ids id ih =>
      rw [ofIds_concat]
      split
      · simpa using ih
      · refine List.pairwise_append.2 ⟨ih, List.pairwise_singleton .., fun i hi j hj => ?_⟩
        rw [List.mem_singleton.1 hj]
        exact ((mem_ofIds_iff h ids i).1 hi).lt_length

theorem size_ofIds (h : Hasher) (ids : List MeterId) :
    (ofIds h ids).2.size = distinctSeries ids := by
  induction ids using List.reverseRecOn with
  | nil => rfl
  | append_singleton ids id ih =>
      have known : id ∈ (ofIds h ids).2 ↔ id.series ∈ (ids.map MeterId.series).toFinset := by
        rw [Std.HashSet.mem_iff_contains, contains_ofIds]
        simp [MeterId.beq_iff]
      have series : ((ids ++ [id]).map MeterId.series).toFinset
          = insert id.series (ids.map MeterId.series).toFinset := by
        ext s
        simp
      rw [ofIds_concat, Std.HashSet.size_insert, ih, distinctSeries, distinctSeries, series]
      by_cases member : id ∈ (ofIds h ids).2
      · rw [if_pos member, Finset.insert_eq_of_mem (known.1 member)]
      · rw [if_neg member, Finset.card_insert_of_notMem (mt known.2 member)]

/-- **A set of ids is a set of series.** `==` is an equivalence, and it asks for the same name and
    the same tags in the same order. Equal ids put the same into every hasher, in whatever state. So
    if ids are put into an empty set in order, whatever the hasher, then those that are new to it,
    which are told in the order in which they came, are exactly those with no earlier one of the
    same name and tags; and the set is in the end as large as the number of series. A metric cap
    that is offered the same series holds as many, but never more than one too many. -/
theorem ofIds_counts_series :
    (∀ a : MeterId, (a == a) = true) ∧
    (∀ a b : MeterId, (a == b) = true → (b == a) = true) ∧
    (∀ a b c : MeterId, (a == b) = true → (b == c) = true → (a == c) = true) ∧
    (∀ a b : MeterId, (a == b) = true ↔ a.name = b.name ∧ a.tags = b.tags) ∧
    (∀ a b : MeterId, (a == b) = true → ∀ (h : Hasher) (s : h.State), a.feed h s = b.feed h s) ∧
    ∀ (h : Hasher) (ids : List MeterId),
      (ofIds h ids).1.Pairwise (· < ·) ∧
      (∀ i, i ∈ (ofIds h ids).1 ↔ ∃ id, ids[i]? = some id ∧
        ∀ earlier ∈ ids.take i, ¬ (earlier.name = id.name ∧ earlier.tags = id.tags)) ∧
      (ofIds h ids).2.size = distinctSeries ids ∧
      ∀ max, (MetricCap.Record.ofSeries max (ids.map MeterId.series)).seen.length
        = min (ofIds h ids).2.size (max + 1) := by
  refine ⟨fun a => BEq.rfl, fun a b => BEq.symm, fun a b c => BEq.trans,
    MeterId.beq_iff_name_tags, fun a b => MeterId.feed_eq_of_beq, fun h ids =>
    ⟨pairwise_ofIds h ids, mem_ofIds_iff h ids, size_ofIds h ids, fun max => ?_⟩⟩
  rw [size_ofIds]
  exact (MetricCap.Record.reads_ofSeries max _).length_seen

/-- The same series under another type, with a unit or with a description is known already; with its
    tags in another order it is new. -/
theorem ofIds_counts_series_three_alike :
    let counter : MeterId := ⟨"db.calls", .counter, [⟨"table", "users"⟩, ⟨"op", "get"⟩], none, none⟩
    let timer : MeterId := { counter with type := .timer, baseUnit := some "s" }
    let told : MeterId := { timer with description := some "database calls" }
    let turned : MeterId := { counter with tags := [⟨"op", "get"⟩, ⟨"table", "users"⟩] }
    (told == counter) = true ∧ (counter == turned) = false ∧
    ∀ h : Hasher, (∀ s, counter.feed h s = told.feed h s) ∧
      let inserted := ofIds h [counter, timer, turned, told]
      0 ∈ inserted.1 ∧ 1 ∉ inserted.1 ∧ 2 ∈ inserted.1 ∧ 3 ∉ inserted.1 ∧ inserted.2.size = 2 := by
  intro counter timer told turned
  obtain ⟨-, symm, trans, iff, feed, sets⟩ := ofIds_counts_series
  have ct : (counter == timer) = true := (iff _ _).2 ⟨rfl, rfl⟩
  have tt : (timer == told) = true := (iff _ _).2 ⟨rfl, rfl⟩
  have same := trans _ _ _ ct tt
  refine ⟨symm _ _ same, by decide, fun h => ⟨feed _ _ same h, ?_⟩⟩
  obtain ⟨-, new, size, -⟩ := sets h [counter, timer, turned, told]
  refine ⟨(new 0).2 ⟨counter, rfl, by simp⟩, fun known => ?_, (new 2).2 ⟨turned, rfl, by decide⟩,
    fun known => ?_, size.trans (by decide)⟩
  · obtain ⟨id, found, fresh⟩ := (new 1).1 known
    cases found
    exact fresh counter (by simp) ⟨rfl, rfl⟩
  · obtain ⟨id, found, fresh⟩ := (new 3).1 known
    cases found
    exact fresh counter (by simp) ⟨rfl, rfl⟩

end IdSet

end MeterGate
