import MeterGate.Evaluation

set_option autoImplicit false

/-! # Closures in scripts

A script writes the closures of its filters in four small languages: predicates on ids, edits of
ids, replacements of tag values, and actions on histogram settings. Each has its meaning as a
function that may panic, as a closure may. -/

namespace MeterGate.Script

/-! ## Predicates -/

/-- A question about an id. -/
inductive Predicate where
  | constant (b : Bool)
  | name (s : String)
  | contains (s : String)
  | hasTag (key : String)
  | tag (key value : String)
  | type (t : MeterType)
  | unit (u : Option String)
  | tagsOver (n : Nat)
  | not (p : Predicate)
  | all (ps : List Predicate)
  | any (ps : List Predicate)
  | panic (message : String)

/-- Whether a list stands somewhere within another. -/
def standsIn (part : List Char) : List Char → Bool
  | [] => part.isEmpty
  | c :: rest => part.isPrefixOf (c :: rest) || standsIn part rest

namespace Predicate

mutual

/-- The answer for an id. -/
def holds (id : MeterId) : Predicate → Except Panic Bool
  | constant b => .ok b
  | name s => .ok (id.name == s)
  | contains s => .ok (standsIn s.toList id.name.toList)
  | hasTag key => .ok (id.tag? key).isSome
  | tag key value => .ok (id.tag? key == some value)
  | type t => .ok (id.type == t)
  | unit u => .ok (id.baseUnit == u)
  | tagsOver n => .ok (n < id.tags.length)
  | not p => do return !(← p.holds id)
  | all ps => allHold id ps
  | any ps => anyHolds id ps
  | panic message => .error ⟨message⟩

/-- Whether all answers are yes; the first no ends the asking. -/
def allHold (id : MeterId) : List Predicate → Except Panic Bool
  | [] => .ok true
  | p :: rest => do
      let b ← p.holds id
      if b then allHold id rest else .ok false

/-- Whether some answer is yes; the first yes ends the asking. -/
def anyHolds (id : MeterId) : List Predicate → Except Panic Bool
  | [] => .ok false
  | p :: rest => do
      let b ← p.holds id
      if b then .ok true else anyHolds id rest

end

/-- The reply of the first rule whose predicate holds, and another one if there is none. -/
def choose (otherwise : Reply) (id : MeterId) : List (Predicate × Reply) → Except Panic Reply
  | [] => .ok otherwise
  | (p, reply) :: rest => do
      let b ← p.holds id
      if b then .ok reply else choose otherwise id rest

end Predicate

/-! ## Edits -/

/-- A change of an id. -/
inductive Edit where
  | withName (s : String)
  | appendName (s : String)
  | withTags (tags : List Tag)
  | addTags (tags : List Tag)
  | withBaseUnit (s : String)
  | withDescription (s : String)
  | reverseTags
  | sortTags
  | panic (message : String)

namespace Edit

/-- The id after a change. -/
def apply (id : MeterId) : Edit → Except Panic MeterId
  | withName s => .ok (id.withName s)
  | appendName s => .ok (id.withName (id.name ++ s))
  | withTags tags => .ok (id.withTags tags)
  | addTags tags => .ok (id.mapTags (· ++ tags))
  | withBaseUnit s => .ok (id.withBaseUnit s)
  | withDescription s => .ok (id.withDescription s)
  | reverseTags => .ok (id.mapTags List.reverse)
  | sortTags => .ok (id.mapTags Tag.sort)
  | panic message => .error ⟨message⟩

/-- The id after changes in order. -/
def applyAll (edits : List Edit) (id : MeterId) : Except Panic MeterId := edits.foldlM apply id

end Edit

/-! ## Replacements -/

/-- A change of a tag value. -/
inductive Replacement where
  | constant (s : String)
  | prepend (s : String)
  | append (s : String)
  | asciiUpper
  | firstChars (n : Nat)
  | byteLength
  | panic (message : String)

/-- The new value for an old one. -/
def Replacement.apply (value : String) : Replacement → Except Panic String
  | constant s => .ok s
  | prepend s => .ok (s ++ value)
  | append s => .ok (value ++ s)
  | asciiUpper => .ok (value.map Char.toUpper)
  | firstChars n => .ok (String.ofList (value.toList.take n))
  | byteLength => .ok (toString value.utf8ByteSize)
  | panic message => .error ⟨message⟩

/-! ## Actions on histogram settings -/

/-- A change of histogram settings. -/
inductive ConfigAction where
  | replace (c : DistributionConfig)
  | layOver (c : DistributionConfig)
  | layUnder (c : DistributionConfig)
  | scaleMaximum (k : Binary64)
  | panic (message : String)

namespace ConfigAction

/-- The settings after a change. -/
def apply (config : DistributionConfig) : ConfigAction → Except Panic DistributionConfig
  | replace c => .ok c
  | layOver c => .ok (c.merge config)
  | layUnder c => .ok (config.merge c)
  | scaleMaximum k =>
      match config.maximum with
      | some x => .ok (DistributionConfig.merge { maximum := some (x.mul k) } config)
      | none => .ok config
  | panic message => .error ⟨message⟩

/-- The settings after a change that is made only if a predicate, when there is one, holds. -/
def applyWhen (condition : Option Predicate) (action : ConfigAction) (id : MeterId)
    (config : DistributionConfig) : Except Panic DistributionConfig := do
  let applies ← match condition with
    | none => .ok true
    | some p => p.holds id
  if applies then action.apply config else .ok config

end ConfigAction

end MeterGate.Script
