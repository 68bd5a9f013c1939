import Std.Data.HashSet

set_option autoImplicit false

/-! # Meter identities

A meter is named before it is made: a `MeterId` has a name, a list of tags, and the unit,
description and type that say how to record it. Tags keep the order in which they were given and
may repeat.

Two ids are the same *time series* when their names and tag lists agree (`MeterId.series`). That is
what `==` looks at, and what is put into a hasher (`MeterId.feed`), so a set of ids is a set of
series whatever the hasher: `distinctPositions` lists the ids that were new when they came. -/

namespace MeterGate

/-! ## Meter types -/

/-- What kind of meter is asked for. -/
inductive MeterType where
  | counter
  | gauge
  | timer
  | distributionSummary
  | longTaskTimer
  | other
deriving DecidableEq, Repr, Inhabited

namespace MeterType

/-- Every meter type, in the order in which messages list them. -/
def all : List MeterType :=
  [.counter, .gauge, .timer, .distributionSummary, .longTaskTimer, .other]

/-- The name of a meter type in configurations and log events. -/
def label : MeterType → String
  | .counter => "counter"
  | .gauge => "gauge"
  | .timer => "timer"
  | .distributionSummary => "distribution_summary"
  | .longTaskTimer => "long_task_timer"
  | .other => "other"

/-- The meter type of a name. -/
def ofLabel? (s : String) : Option MeterType := all.find? (·.label == s)

/-- Only timers and distribution summaries have histogram settings. -/
def usesDistributionConfig : MeterType → Bool
  | .timer | .distributionSummary => true
  | _ => false

theorem usesDistributionConfig_iff (t : MeterType) :
    t.usesDistributionConfig = true ↔ t = .timer ∨ t = .distributionSummary := by
  cases t <;> decide

theorem ofLabel?_label (t : MeterType) : ofLabel? t.label = some t := by cases t <;> decide

end MeterType

/-! ## Tags -/

/-- A key with a value: one dimension of a meter. -/
structure Tag where
  key : String
  value : String
deriving DecidableEq, Repr, Inhabited

namespace Tag

/-- Tags are ordered by key, then by value, both by code points. -/
def le (a b : Tag) : Bool := a.key < b.key || (a.key == b.key && a.value ≤ b.value)

/-- The tags in ascending order. -/
def sort (tags : List Tag) : List Tag := tags.mergeSort le

/-- The value of the first tag with a given key. -/
def firstValue? (key : String) (tags : List Tag) : Option String :=
  (tags.find? (·.key == key)).map (·.value)

end Tag

/-! ## Identities -/

/-- A time series: a name with the tags in their order. -/
structure Series where
  name : String
  tags : List Tag
deriving DecidableEq, Repr, Inhabited

/-- The identity under which a meter is asked for. -/
structure MeterId where
  name : String
  type : MeterType
  tags : List Tag := []
  baseUnit : Option String := none
  description : Option String := none
deriving DecidableEq, Repr, Inhabited

namespace MeterId

/-- The time series that an id stands for: type, unit and description do not count. -/
def series (id : MeterId) : Series := ⟨id.name, id.tags⟩

instance : BEq MeterId := ⟨fun a b => a.series == b.series⟩

theorem beq_iff (a b : MeterId) : (a == b) = true ↔ a.series = b.series := by
  show (a.series == b.series) = true ↔ _
  exact beq_iff_eq

instance : EquivBEq MeterId where
  rfl {a} := (beq_iff a a).2 rfl
  symm {a b} h := (beq_iff b a).2 ((beq_iff a b).1 h).symm
  trans {a b c} h k := (beq_iff a c).2 (((beq_iff a b).1 h).trans ((beq_iff b c).1 k))

/-- The same id under another name. -/
def withName (name : String) (id : MeterId) : MeterId := { id with name := name }

/-- The same id with other tags. -/
def withTags (tags : List Tag) (id : MeterId) : MeterId := { id with tags := tags }

/-- The same id with its tag list rebuilt. -/
def mapTags (f : List Tag → List Tag) (id : MeterId) : MeterId := { id with tags := f id.tags }

/-- The same id in another unit. -/
def withBaseUnit (unit : String) (id : MeterId) : MeterId := { id with baseUnit := some unit }

/-- The same id with another description. -/
def withDescription (text : String) (id : MeterId) : MeterId :=
  { id with description := some text }

/-- The value of the first tag with a given key. -/
def tag? (key : String) (id : MeterId) : Option String := Tag.firstValue? key id.tags

/-- Whether the name begins with the given text. -/
def nameStartsWith (start : String) (id : MeterId) : Bool :=
  start.toList.isPrefixOf id.name.toList

end MeterId

/-! ## Hashing -/

/-- A hasher: where it starts, what becomes of its state when a text or a length is put in, and the
    hash that it gives in the end. -/
structure Hasher where
  State : Type
  start : State
  text : String → State → State
  length : Nat → State → State
  finish : State → UInt64

/-- The hasher that mixes the hashes of what is put in. -/
def Hasher.mixing : Hasher where
  State := UInt64
  start := 7
  text t s := mixHash s (hash t)
  length n s := mixHash s (hash n)
  finish s := s

/-- Put a tag into a hasher: its key, then its value. -/
def Tag.feed (h : Hasher) (t : Tag) (s : h.State) : h.State := h.text t.value (h.text t.key s)

namespace MeterId

/-- Put an id into a hasher: its name, and its tags behind their number. -/
def feed (h : Hasher) (id : MeterId) (s : h.State) : h.State :=
  id.tags.foldl (fun s t => t.feed h s) (h.length id.tags.length (h.text id.name s))

/-- Ids hashed by a hasher. -/
@[reducible] def hashable (h : Hasher) : Hashable MeterId :=
  ⟨fun id => h.finish (id.feed h h.start)⟩

/-- Equal ids put the same into every hasher. -/
theorem feed_eq_of_beq {a b : MeterId} (same : (a == b) = true) (h : Hasher) (s : h.State) :
    a.feed h s = b.feed h s := by
  have series := (beq_iff a b).1 same
  have name : a.name = b.name := congrArg Series.name series
  have tags : a.tags = b.tags := congrArg Series.tags series
  rw [feed, feed, name, tags]

instance (h : Hasher) : @LawfulHashable MeterId _ (hashable h) :=
  @LawfulHashable.mk MeterId _ (hashable h) fun _ _ same =>
    congrArg h.finish (feed_eq_of_beq same h h.start)

end MeterId

/-! ## Sets of series -/

/-- A set of ids, each found by the hash that a hasher gives of it. -/
abbrev IdSet (h : Hasher) := @Std.HashSet MeterId _ (MeterId.hashable h)

namespace IdSet

variable {h : Hasher}

/-- Put ids into a set in order: the positions, counted from `i`, of those that are new to it, and
    the set that comes of it. -/
def insertAll (seen : IdSet h) (i : Nat) : List MeterId → List Nat × IdSet h
  | [] => ([], seen)
  | id :: rest =>
      let (known, grown) := seen.containsThenInsert id
      let (later, all) := insertAll grown (i + 1) rest
      (if known then later else i :: later, all)

/-- The positions of the ids that are new to a set in which there was nothing before, and the set
    that comes of it. -/
def ofIds (h : Hasher) (ids : List MeterId) : List Nat × IdSet h := insertAll ∅ 0 ids

end IdSet

/-- The positions of the ids that are new to a set into which the list is put in order. -/
def distinctPositions (ids : List MeterId) : List Nat := (IdSet.ofIds .mixing ids).1

end MeterGate
