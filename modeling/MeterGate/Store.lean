import MeterGate.Filter.Limiter

set_option autoImplicit false

/-! # The store of limiter records

The limiters of several chains, some of them shared, keep their records in one `Store`: a row of
records for metric caps and one for tag caps. A limiter knows its place in the row. A row is blank
beyond its end, so every place can be read and written (`Row.get_put`), and a new limiter takes the
place after the last one. -/

namespace MeterGate

/-- Records by place, blank beyond the end of the list. -/
abbrev Row (α : Type) := List α

namespace Row

variable {α : Type} [Inhabited α]

/-- The record at a place. -/
def get (row : Row α) (place : Nat) : α := row.getD place default

/-- Put a record at a place; the places between the end and it stay blank. -/
def put : Row α → Nat → α → Row α
  | [], 0, a => [a]
  | [], place + 1, a => default :: put [] place a
  | _ :: rest, 0, a => a :: rest
  | b :: rest, place + 1, a => b :: put rest place a

/-- A place holds what was put there last. -/
theorem get_put (row : Row α) (place other : Nat) (a : α) :
    (row.put place a).get other = if other = place then a else row.get other := by
  induction place generalizing row other with
  | zero => cases row <;> cases other <;> simp [put, get]
  | succ place ih =>
      cases row with
      | nil =>
          cases other with
          | zero => simp [put, get]
          | succ other =>
              have := ih [] other
              simp only [get, List.getD_nil] at this
              simpa [put, get] using this
      | cons b rest =>
          cases other with
          | zero => simp [put, get]
          | succ other =>
              have := ih rest other
              simp only [get] at this
              simpa [put, get] using this

/-- No place is lost when something is put at one. -/
theorem length_le_put (row : Row α) (place : Nat) (a : α) :
    row.length ≤ (row.put place a).length := by
  induction place generalizing row with
  | zero => cases row <;> simp [put]
  | succ place ih =>
      cases row with
      | nil => exact Nat.zero_le _
      | cons b rest => exact Nat.succ_le_succ (ih rest)

/-- A blank record at the end is what was read there before. -/
theorem get_append_default (row : Row α) (place : Nat) :
    Row.get (row ++ [default]) place = Row.get row place := by
  induction row generalizing place with
  | nil => cases place <;> simp [get]
  | cons b rest ih =>
      cases place with
      | zero => simp [get]
      | succ place =>
          have := ih place
          simp only [get] at this
          simpa [get] using this

end Row

/-- The records of all limiters. -/
structure Store where
  metrics : Row MetricCap.Record := []
  values : Row TagCap.Record := []
deriving DecidableEq, Repr

namespace Store

instance : Inhabited Store := ⟨{}⟩

/-- The record of the metric cap at a place. -/
def metricCell (place : Nat) : Cell Store MetricCap.Record where
  get s := s.metrics.get place
  put r s := { s with metrics := s.metrics.put place r }
  get_put r s := by simp [Row.get_put]

/-- The record of the tag cap at a place. -/
def valueCell (place : Nat) : Cell Store TagCap.Record where
  get s := s.values.get place
  put r s := { s with values := s.values.put place r }
  get_put r s := by simp [Row.get_put]

/-- A place for a new metric cap, with a blank record in it. -/
def newMetricCap (s : Store) : Nat × Store :=
  (s.metrics.length, { s with metrics := s.metrics ++ [default] })

/-- A place for a new tag cap, with a blank record in it. -/
def newTagCap (s : Store) : Nat × Store :=
  (s.values.length, { s with values := s.values ++ [default] })

/-- Making room for a new metric cap changes no record. -/
theorem get_newMetricCap (s : Store) (place : Nat) :
    (metricCell place).get s.newMetricCap.2 = (metricCell place).get s :=
  Row.get_append_default s.metrics place

/-- Making room for a new tag cap changes no record. -/
theorem get_newTagCap (s : Store) (place : Nat) :
    (valueCell place).get s.newTagCap.2 = (valueCell place).get s :=
  Row.get_append_default s.values place

end Store

end MeterGate
