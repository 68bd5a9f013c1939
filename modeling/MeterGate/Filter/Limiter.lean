import MeterGate.Filter.Basic

set_option autoImplicit false

/-! # Filters that limit cardinality

A *metric cap* limits the number of time series, a *tag cap* the number of values that one tag of
one meter takes. Both keep a record of what they have seen in a cell of the filters' memory, and
note in it when they first went over the limit (`tripped`), which is reported with a warning once.

A metric cap stops recording at the first series too many and from then on denies everything, also
what it admitted before. A tag cap goes on recording; while it is over the limit it hands meters
that it watches to an overflow filter, and every histogram config too. -/

namespace MeterGate

/-! ## The metric cap -/

namespace MetricCap

/-- What a metric cap has seen: the distinct series in order of arrival, and whether it has ever
    denied. -/
structure Record where
  seen : List Series := []
  tripped : Bool := false
deriving DecidableEq, Repr, Inhabited

namespace Record

/-- Whether more series were seen than are allowed. -/
def isOver (max : Nat) (r : Record) : Bool := max < r.seen.length

/-- Add a series, unless it is known or the record is over the limit already. -/
def insert (max : Nat) (s : Series) (r : Record) : Record :=
  if r.isOver max || r.seen.contains s then r else { r with seen := r.seen ++ [s] }

/-- The record after a series was offered: a record that is over the limit has tripped. -/
def offer (max : Nat) (s : Series) (r : Record) : Record :=
  let r' := r.insert max s
  { r' with tripped := r'.tripped || r'.isOver max }

theorem isOver_offer (max : Nat) (s : Series) (r : Record) :
    (r.offer max s).isOver max = (r.insert max s).isOver max := rfl

/-- Offering a series twice is offering it once. -/
theorem offer_offer (max : Nat) (s : Series) (r : Record) :
    (r.offer max s).offer max s = r.offer max s := by
  by_cases h : r.isOver max || r.seen.contains s
  · have insert_eq : ∀ t : Bool, Record.insert max s ⟨r.seen, t⟩ = ⟨r.seen, t⟩ := by
      intro t
      exact if_pos (by simpa [isOver] using h)
    cases r with
    | mk seen tripped =>
        simp only [offer, insert_eq]
        simp [isOver]
  · have grown : ∀ t : Bool, Record.insert max s ⟨r.seen ++ [s], t⟩ = ⟨r.seen ++ [s], t⟩ := by
      intro t
      exact if_pos (by simp)
    have insert_eq : r.insert max s = { r with seen := r.seen ++ [s] } := if_neg h
    simp only [offer, insert_eq, grown]
    simp [isOver]

end Record

/-- The event of a denial: a warning if the cap had not tripped before. -/
def denial (max : Nat) (id : MeterId) (trippedBefore : Bool) : Event :=
  if trippedBefore then .metricCapDenied id.name max else .metricCapTripped id.name max

/-- The reply of a metric cap. -/
def accept {σ : Type} (cell : Cell σ Record) (max : Nat) (id : MeterId) : Eval σ Reply := do
  let before ← Eval.read cell
  let after := before.offer max id.series
  Eval.write cell after
  if after.isOver max then
    Eval.log (denial max id before.tripped)
    pure .deny
  else
    pure .neutral

end MetricCap

/-- Deny everything once more than `max` distinct series were seen. -/
def Filter.metricCap {σ : Type} (cell : Cell σ MetricCap.Record) (max : Nat) : Filter σ where
  accept := MetricCap.accept cell max

/-! ## The tag cap -/

namespace TagCap

/-- What a tag cap has seen: the distinct values in ascending order, and whether it was ever over
    its limit. -/
structure Record where
  values : List String := []
  tripped : Bool := false
deriving DecidableEq, Repr, Inhabited

/-- A value put into its place in an ascending list, unless it is there already. -/
def insertValue (v : String) : List String → List String
  | [] => [v]
  | w :: rest =>
      if v = w then w :: rest
      else if v < w then v :: w :: rest
      else w :: insertValue v rest

theorem mem_insertValue {v x : String} {values : List String} :
    x ∈ insertValue v values ↔ x = v ∨ x ∈ values := by
  induction values with
  | nil => simp [insertValue]
  | cons w rest ih =>
      unfold insertValue
      split
      · next h => subst h; simp
      · split
        · simp
        · simp only [List.mem_cons, ih]
          exact ⟨fun h => by rcases h with h | h | h <;> simp [h],
            fun h => by rcases h with h | h | h <;> simp [h]⟩

/-- A value that has its place keeps it. -/
theorem insertValue_insertValue (v : String) (values : List String) :
    insertValue v (insertValue v values) = insertValue v values := by
  induction values with
  | nil => simp [insertValue]
  | cons w rest ih =>
      by_cases same : v = w
      · simp [insertValue, same]
      · by_cases below : v < w
        · simp [insertValue, same, below]
        · simp [insertValue, same, below, ih]

namespace Record

/-- Whether more values were seen than are allowed. -/
def isOver (max : Nat) (r : Record) : Bool := max < r.values.length

/-- The record after a value was seen: a record that is over the limit has tripped. -/
def offer (max : Nat) (v : String) (r : Record) : Record :=
  let r' := { r with values := insertValue v r.values }
  { r' with tripped := r'.tripped || r'.isOver max }

/-- Offering a value twice is offering it once. -/
theorem offer_offer (max : Nat) (v : String) (r : Record) :
    (r.offer max v).offer max v = r.offer max v := by
  simp [offer, isOver, insertValue_insertValue]

end Record

/-- Which meters a tag cap watches, and how many values it allows. -/
structure Limit where
  name : String
  key : String
  max : Nat
deriving DecidableEq, Repr

/-- The value that a tag cap counts for an id: the first one of its key, if the id has its name. -/
def Limit.valueOf? (limit : Limit) (id : MeterId) : Option String :=
  if id.name = limit.name then id.tag? limit.key else none

/-- The reply of a tag cap. -/
def accept {σ : Type} (cell : Cell σ Record) (limit : Limit) (overflow : Filter σ) (id : MeterId) :
    Eval σ Reply :=
  match limit.valueOf? id with
  | none => pure .neutral
  | some v => do
      let before ← Eval.read cell
      let after := before.offer limit.max v
      Eval.write cell after
      if after.isOver limit.max then
        if !before.tripped then
          Eval.log (.tagCapTripped limit.name limit.key limit.max)
        overflow.accept id
      else
        pure .neutral

/-- The histogram config behind a tag cap: the overflow filter's work while it is over its limit. -/
def configure {σ : Type} (cell : Cell σ Record) (limit : Limit) (overflow : Filter σ) (id : MeterId)
    (config : DistributionConfig) : Eval σ DistributionConfig := do
  let record ← Eval.read cell
  if record.isOver limit.max then overflow.configure id config else pure config

end TagCap

/-- Hand meters to `overflow` once the watched tag has taken more values than allowed. Ids are never
    mapped by the overflow filter. -/
def Filter.tagCap {σ : Type} (cell : Cell σ TagCap.Record) (limit : TagCap.Limit)
    (overflow : Filter σ) : Filter σ where
  accept := TagCap.accept cell limit overflow
  configure := TagCap.configure cell limit overflow

end MeterGate
