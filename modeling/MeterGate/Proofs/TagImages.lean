import MeterGate.Proofs.History

set_option autoImplicit false

/-! # What becomes of a tag

Under the name of a meter each rule makes of a tag a tag or nothing, whatever other tags there are
(`Rule.tagImage`), and puts tags of its own at the end (`Rule.added`). So a list of rules does the
same: a tag goes through the rules one after another (`Rule.imageAll`), and a tag that a rule put
there goes through the rules behind it (`Rule.addedAll`). This is all that the mapping pass does
(`Rule.mapAll_eq`). -/

namespace MeterGate

namespace Rule

/-! ## One rule -/

/-- What a rule makes of a tag of a meter with a name. -/
def tagImage (name : String) : Rule → Tag → Option Tag
  | .renameTag start fromKey toKey, t =>
      some (if start.toList.isPrefixOf name.toList then t.renameKey fromKey toKey else t)
  | .ignoreTags keys, t => if keys.contains t.key then none else some t
  | .replaceTagValues key replacement exceptions, t =>
      some (if t.key ≠ key ∨ t.value ∈ exceptions then t else { t with value := replacement })
  | _, t => some t

/-- The tags that a rule puts at the end of every tag list. -/
def added : Rule → List Tag
  | .commonTags tags => tags
  | _ => []

theorem mapId_eq (rule : Rule) (id : MeterId) :
    rule.mapId id
      = id.mapTags fun tags => tags.filterMap (rule.tagImage id.name) ++ rule.added := by
  cases rule with
  | commonTags tags =>
      show id.addTags tags = id.mapTags fun own => own.filterMap some ++ tags
      simp only [List.filterMap_some]
      rfl
  | renameTag start fromKey toKey =>
      by_cases starts : start.toList.isPrefixOf id.name.toList = true
      · have image : (renameTag start fromKey toKey).tagImage id.name
            = some ∘ Tag.renameKey fromKey toKey := funext fun t => congrArg some (if_pos starts)
        simp only [image, List.filterMap_eq_map, added, List.append_nil]
        exact if_pos starts
      · have image : (renameTag start fromKey toKey).tagImage id.name = some :=
          funext fun t => congrArg some (if_neg starts)
        simp only [image, List.filterMap_some, added, List.append_nil]
        exact if_neg starts
  | ignoreTags keys =>
      have image : (ignoreTags keys).tagImage id.name
          = Option.guard fun t => !keys.contains t.key := by
        funext t
        show (if keys.contains t.key = true then none else some t) = _
        cases listed : keys.contains t.key <;> simp only [Option.guard, listed] <;> rfl
      simp only [image, List.filterMap_eq_filter, added, List.append_nil]
      rfl
  | replaceTagValues key replacement exceptions =>
      show _ = id.mapTags fun own => own.filterMap (some ∘ fun t =>
        if t.key ≠ key ∨ t.value ∈ exceptions then t else { t with value := replacement }) ++ []
      simp only [List.filterMap_eq_map, List.append_nil]
      rfl
  | _ =>
      show id = id.mapTags fun own => own.filterMap some ++ []
      simp only [List.filterMap_some, List.append_nil]
      rfl

/-! ## A list of rules -/

/-- What the rules of a list make of a tag, one after another. -/
def imageAll (name : String) : List Rule → Tag → Option Tag
  | [], t => some t
  | rule :: rest, t => (rule.tagImage name t).bind (imageAll name rest)

/-- The tags at the end that come from the rules of a list: what each rule put there, as the rules
    behind it leave it. -/
def addedAll (name : String) : List Rule → List Tag
  | [] => []
  | rule :: rest => rule.added.filterMap (imageAll name rest) ++ addedAll name rest

theorem imageAll_append (name : String) (xs ys : List Rule) (t : Tag) :
    imageAll name (xs ++ ys) t = (imageAll name xs t).bind (imageAll name ys) := by
  induction xs generalizing t with
  | nil => rfl
  | cons rule rest ih =>
      show (rule.tagImage name t).bind _ = ((rule.tagImage name t).bind _).bind _
      rw [Option.bind_assoc]
      exact congrArg _ (funext ih)

/-- What the rules before a place in the list put at the end goes through the rules behind it. -/
theorem addedAll_append (name : String) (xs ys : List Rule) :
    addedAll name (xs ++ ys)
      = (addedAll name xs).filterMap (imageAll name ys) ++ addedAll name ys := by
  induction xs with
  | nil => rfl
  | cons rule rest ih =>
      have onward : imageAll name (rest ++ ys)
          = fun t => (imageAll name rest t).bind (imageAll name ys) :=
        funext (imageAll_append name rest ys)
      simp only [List.cons_append, addedAll, ih, onward, List.filterMap_append,
        List.filterMap_filterMap, List.append_assoc]

/-- **The mapping pass in normal form.** Every tag goes through the rules on its own, in its place,
    and what the rules put at the end comes behind. -/
theorem mapAll_eq (rules : List Rule) (id : MeterId) :
    mapAll rules id
      = id.mapTags fun tags =>
          tags.filterMap (imageAll id.name rules) ++ addedAll id.name rules := by
  induction rules generalizing id with
  | nil => simp [mapAll, imageAll, addedAll, MeterId.mapTags]
  | cons rule rest ih =>
      show mapAll rest (rule.mapId id) = _
      rw [ih, mapId_eq]
      simp only [MeterId.mapTags, List.filterMap_append, List.filterMap_filterMap, addedAll,
        List.append_assoc]
      rfl

end Rule

namespace ChainConfig

/-- **What mapping does to tags.** A good config builds a chain, which maps every id of a name alike
    and at any time: name, type, unit and description stay; every tag has its image, which depends
    on no other tag, or none, and the images are in the order of the tags, as often as there were
    tags. Behind them comes what the chain makes of the id without tags. There each rule for common
    tags has its own, in the order of the rules, each as the rules after it leave it. -/
theorem map_of_valid (c : ChainConfig) (valid : c.validate = .ok ()) (w : World Store) :
    ∃ filters built, c.build w = .ok filters built ∧
      let chain := Chain.toFilter (StockFilter.toChain filters)
      ∀ name, let image := Rule.imageAll name c.rules
        let appended := Rule.addedAll name c.rules
        (∀ id : MeterId, id.name = name → ∀ now : World Store,
          chain.map id now
            = .ok { id with tags := id.tags.filterMap image ++ appended } now ∧
          chain.map (id.withTags []) now = .ok (id.withTags appended) now) ∧
        ∀ before tags after, c.rules = before ++ .commonTags tags :: after →
          appended = (Rule.addedAll name before).filterMap (Rule.imageAll name after)
            ++ tags.filterMap (Rule.imageAll name after) ++ Rule.addedAll name after := by
  refine ⟨_, _, build_of_valid valid w, fun name => ⟨?_, ?_⟩⟩
  · rintro id rfl now
    have mapped : ∀ id : MeterId, Chain.map (StockFilter.toChain _) id now
        = .ok (Rule.mapAll c.rules id) now := fun id =>
      congrFun (Rule.map_buildAll c.rules w.state id) now
    refine ⟨(mapped id).trans ?_, (mapped (id.withTags [])).trans ?_⟩
    · rw [Rule.mapAll_eq]
      rfl
    · rw [Rule.mapAll_eq]
      rfl
  · intro before tags after rules
    show Rule.addedAll name c.rules = _
    rw [rules, Rule.addedAll_append, List.append_assoc]
    rfl

/-- A common tag is renamed and its value replaced as if it had been given, and a tag that was given
    under the new name already is not. -/
theorem map_of_valid_twice_uri :
    let c : ChainConfig := { rules := [
      .ignoreTags ["host"], .commonTags [⟨"path", "/jobs"⟩, ⟨"host", "h1"⟩],
      .renameTag "http" "path" "uri", .replaceTagValues "uri" "other" ["/a"]] }
    let id : MeterId := ⟨"http.requests", .counter,
      [⟨"uri", "/b"⟩, ⟨"host", "h2"⟩, ⟨"path", "/a"⟩, ⟨"uri", "/b"⟩], none, none⟩
    c.validate = .ok () ∧ id.name = "http.requests" ∧
    ∃ filters built, c.build (.fresh {}) = .ok filters built ∧
      Chain.map (StockFilter.toChain filters) id built = .ok (id.withTags
        [⟨"uri", "other"⟩, ⟨"uri", "/a"⟩, ⟨"uri", "other"⟩, ⟨"uri", "other"⟩, ⟨"host", "h1"⟩])
        built := by
  intro c id
  have valid : c.validate = .ok () := by decide +kernel
  obtain ⟨filters, built, ran, images⟩ := map_of_valid c valid (.fresh {})
  refine ⟨valid, rfl, filters, built, ran, ?_⟩
  refine ((images "http.requests").1 id rfl built).1.trans ?_
  have tags : id.tags.filterMap (Rule.imageAll "http.requests" c.rules)
      ++ Rule.addedAll "http.requests" c.rules
        = [⟨"uri", "other"⟩, ⟨"uri", "/a"⟩, ⟨"uri", "other"⟩, ⟨"uri", "other"⟩,
          ⟨"host", "h1"⟩] := by
    decide +kernel
  rw [tags]
  rfl

end ChainConfig

end MeterGate
