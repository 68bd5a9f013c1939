import MeterGate.Filter.Basic

set_option autoImplicit false

/-! # Filters that change tags

Each changes the tag list of an id and keeps its name, type, unit and description. The order of the
tags that stay is kept, and nothing is deduplicated. The changes are functions on ids, and the
filters only put them into the mapping pass. -/

namespace MeterGate

/-! ## Changing one tag -/

namespace Tag

/-- The tag under a new key if it has the old one. -/
def renameKey (fromKey toKey : String) (t : Tag) : Tag :=
  if t.key = fromKey then { t with key := toKey } else t

/-- The tag with a replaced value if it has the key and its value is no exception. -/
def replaceValue (key : String) (replacement : String → Except Panic String)
    (exceptions : List String) (t : Tag) : Except Panic Tag :=
  if t.key ≠ key ∨ t.value ∈ exceptions then .ok t
  else (replacement t.value).map fun v => { t with value := v }

/-- The tags with the values of one key replaced, in order; the first panic ends it. -/
def replaceValues (key : String) (replacement : String → Except Panic String)
    (exceptions : List String) : List Tag → Except Panic (List Tag)
  | [] => .ok []
  | t :: rest => do
      let t' ← t.replaceValue key replacement exceptions
      let rest' ← replaceValues key replacement exceptions rest
      .ok (t' :: rest')

/-- With a fixed replacement value every tag is changed on its own. -/
theorem replaceValues_const (key r : String) (exceptions : List String) (tags : List Tag) :
    replaceValues key (fun _ => .ok r) exceptions tags
      = .ok (tags.map fun t =>
          if t.key ≠ key ∨ t.value ∈ exceptions then t else { t with value := r }) := by
  induction tags with
  | nil => rfl
  | cons t rest ih =>
      simp only [replaceValues, ih, List.map_cons]
      unfold replaceValue
      split <;> rfl

end Tag

/-! ## Changing an id -/

namespace MeterId

/-- The id with further tags at the end. -/
def addTags (tags : List Tag) (id : MeterId) : MeterId := id.mapTags (· ++ tags)

/-- The id with a tag key renamed wherever it occurs, if its name begins as asked. -/
def renameTag (start fromKey toKey : String) (id : MeterId) : MeterId :=
  if id.nameStartsWith start then id.mapTags (List.map (Tag.renameKey fromKey toKey)) else id

/-- The id without the tags of the given keys. -/
def dropTags (keys : List String) (id : MeterId) : MeterId :=
  id.mapTags (List.filter fun t => !keys.contains t.key)

/-- The id with the values of a tag key replaced. -/
def replaceTagValues (key : String) (replacement : String → Except Panic String)
    (exceptions : List String) (id : MeterId) : Except Panic MeterId :=
  (Tag.replaceValues key replacement exceptions id.tags).map fun tags => { id with tags := tags }

@[simp] theorem type_renameTag (start a b : String) (id : MeterId) :
    (id.renameTag start a b).type = id.type := by unfold renameTag; split <;> rfl

end MeterId

/-! ## The filters -/

namespace Filter

variable {σ : Type}

/-- Append fixed tags to every id. -/
def commonTags (tags : List Tag) : Filter σ where
  map id := pure (id.addTags tags)

/-- Rename a tag key on ids whose name begins as given. -/
def renameTag (start fromKey toKey : String) : Filter σ where
  map id := pure (id.renameTag start fromKey toKey)

/-- Drop the tags of the given keys. -/
def ignoreTags (keys : List String) : Filter σ where
  map id := pure (id.dropTags keys)

/-- Replace the values of a tag key, but for some exceptions. -/
def replaceTagValues (key : String) (replacement : String → Except Panic String)
    (exceptions : List String) : Filter σ :=
  ofMap (MeterId.replaceTagValues key replacement exceptions)

end Filter

end MeterGate
