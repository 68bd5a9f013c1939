import MeterGate.Proofs.TagImages

set_option autoImplicit false

/-! # Filters that rewrite tags, one after another

Dropping tags, renaming a key and replacing values by a fixed one make of each tag another one or
nothing, and touch nothing else of an id (`StockFilter.RetagsBy`). So two such filters one after the
other do the same (`StockFilter.RetagsBy.andThen`), and what they come to is found at a single tag:
a second dropping adds its keys to those of the first, a second renaming or replacing finds nothing
left to do, and a renaming is undone by the one the other way exactly for the tags that did not have
the new key before (`Tag.renameKey_back_iff`). -/

namespace MeterGate

theorem filterMap_eq_self_iff {α : Type} {f : α → Option α} {l : List α} :
    l.filterMap f = l ↔ ∀ a ∈ l, f a = some a := by
  refine ⟨fun same => ?_, fun each => ?_⟩
  · induction l with
    | nil => exact fun a ha => nomatch ha
    | cons a rest ih =>
        cases own : f a with
        | none =>
            -- too few would be left
            rw [List.filterMap_cons_none own] at same
            have short := List.length_filterMap_le f rest
            rw [same, List.length_cons] at short
            omega
        | some b =>
            rw [List.filterMap_cons_some own] at same
            obtain ⟨rfl, later⟩ := List.cons.inj same
            exact List.forall_mem_cons.2 ⟨own, ih later⟩
  · rw [List.filterMap_congr each, List.filterMap_some]

/-! ## One tag -/

namespace Tag

variable {a b : String}

theorem renameKey_of_key_eq {t : Tag} (old : t.key = a) : t.renameKey a b = { t with key := b } :=
  if_pos old

theorem renameKey_of_key_ne {t : Tag} (other : t.key ≠ a) : t.renameKey a b = t := if_neg other

theorem renameKey_renameKey (t : Tag) : (t.renameKey a b).renameKey a b = t.renameKey a b := by
  by_cases old : t.key = a
  · rw [renameKey_of_key_eq old, renameKey]
    split <;> rfl
  · rw [renameKey_of_key_ne old, renameKey_of_key_ne old]

/-- Renaming the other way gives back the tag, unless it had the new key before. -/
theorem renameKey_back_iff (differ : a ≠ b) (t : Tag) :
    (t.renameKey a b).renameKey b a = t ↔ t.key ≠ b := by
  by_cases old : t.key = a
  · have back : (t.renameKey a b).renameKey b a = t := by
      rw [renameKey_of_key_eq old, ← old]
      exact renameKey_of_key_eq rfl
    exact iff_of_true back (old ▸ differ)
  · rw [renameKey_of_key_ne old]
    refine ⟨fun same new => ?_, renameKey_of_key_ne⟩
    rw [renameKey_of_key_eq new] at same
    exact old (congrArg key same).symm

end Tag

namespace Rule

variable {name start a b : String} {keys keys' all : List String} {t : Tag}

theorem tagImage_ignoreTags_ignoreTags (union : ∀ k, k ∈ all ↔ k ∈ keys' ∨ k ∈ keys) :
    ((ignoreTags keys).tagImage name t).bind ((ignoreTags keys').tagImage name)
      = (ignoreTags all).tagImage name t := by
  by_cases first : t.key ∈ keys
  · simp [tagImage, union, first]
  · by_cases second : t.key ∈ keys' <;> simp [tagImage, union, first, second]

theorem tagImage_renameTag_renameTag :
    ((renameTag start a b).tagImage name t).bind ((renameTag start a b).tagImage name)
      = (renameTag start a b).tagImage name t := by
  by_cases starts : start.toList.isPrefixOf name.toList = true
  · simp [tagImage, starts, Tag.renameKey_renameKey]
  · simp [tagImage, starts]

theorem tagImage_renameTag_back_iff (differ : a ≠ b) :
    ((renameTag start a b).tagImage name t).bind ((renameTag start b a).tagImage name) = some t ↔
      start.toList.isPrefixOf name.toList = false ∨ t.key ≠ b := by
  cases starts : start.toList.isPrefixOf name.toList with
  | true => simp [tagImage, starts, Tag.renameKey_back_iff differ]
  | false => simp [tagImage, starts]

theorem tagImage_renameTag_ignoreTags (listed : b ∈ keys) (union : ∀ k, k ∈ all ↔ k ∈ keys ∨ k = a)
    (starts : start.toList.isPrefixOf name.toList = true) :
    ((renameTag start a b).tagImage name t).bind ((ignoreTags keys).tagImage name)
      = (ignoreTags all).tagImage name t := by
  by_cases old : t.key = a
  · simp [tagImage, starts, union, Tag.renameKey_of_key_eq old, listed, old]
  · simp [tagImage, starts, union, Tag.renameKey_of_key_ne old, old]

theorem tagImage_replaceTagValues_replaceTagValues (key r : String) (exceptions : List String) :
    ((replaceTagValues key r exceptions).tagImage name t).bind
        ((replaceTagValues key r exceptions).tagImage name)
      = (replaceTagValues key r exceptions).tagImage name t := by
  by_cases kept : t.key ≠ key ∨ t.value ∈ exceptions
  · simp only [tagImage, if_pos kept, Option.bind_some]
  · simp only [tagImage, if_neg kept, Option.bind_some, ite_self]

end Rule

/-! ## One filter after another -/

namespace StockFilter

/-- A filter that makes of each tag of an id, under the name of the meter, another one or nothing,
    and does nothing else. -/
def RetagsBy (f : StockFilter) (image : String → Tag → Option Tag) : Prop :=
  ∀ id, f.toFilter.map id = pure (id.withTags (id.tags.filterMap (image id.name)))

/-- The filter of a rule that puts no tags at the end. -/
theorem retagsBy_build (rule : Rule) (plain : rule.added = []) (s : Store) :
    (rule.build s).1.RetagsBy fun name => rule.tagImage name := by
  intro id
  rw [Rule.map_build, Rule.mapId_eq, plain]
  simp only [List.append_nil]
  rfl

theorem retagsBy_ignoreTags (keys : List String) :
    (ignoreTags keys).RetagsBy fun name => (Rule.ignoreTags keys).tagImage name :=
  retagsBy_build (.ignoreTags keys) rfl {}

theorem retagsBy_renameTag (start a b : String) :
    (renameTag start a b).RetagsBy fun name => (Rule.renameTag start a b).tagImage name :=
  retagsBy_build (.renameTag start a b) rfl {}

theorem retagsBy_replaceTagValues (key r : String) (exceptions : List String) :
    (replaceTagValues key (fun _ => .ok r) exceptions).RetagsBy fun name =>
      (Rule.replaceTagValues key r exceptions).tagImage name :=
  retagsBy_build (.replaceTagValues key r exceptions) rfl {}

namespace RetagsBy

variable {f g h : StockFilter} {F G H : String → Tag → Option Tag}

theorem andThen (hf : f.RetagsBy F) (hg : g.RetagsBy G) (id : MeterId) :
    (f.toFilter.map >=> g.toFilter.map) id
      = pure (id.withTags (id.tags.filterMap fun t => (F id.name t).bind (G id.name))) := by
  show f.toFilter.map id >>= g.toFilter.map = _
  rw [hf, pure_bind, hg, ← List.filterMap_filterMap]
  rfl

/-- Two filters come to a third if they make the same of every tag. -/
theorem andThen_eq (hf : f.RetagsBy F) (hg : g.RetagsBy G) (hh : h.RetagsBy H) {id : MeterId}
    (same : ∀ t ∈ id.tags, (F id.name t).bind (G id.name) = H id.name t) :
    (f.toFilter.map >=> g.toFilter.map) id = h.toFilter.map id := by
  rw [andThen hf hg, hh, List.filterMap_congr same]

end RetagsBy

/-- The filters that drop tags, rename a key, or replace values by a fixed one. -/
inductive Retagging : StockFilter → Prop
  | ignoreTags (keys : List String) : Retagging (.ignoreTags keys)
  | renameTag (start a b : String) : Retagging (.renameTag start a b)
  | replaceTagValues (key r : String) (exceptions : List String) :
      Retagging (.replaceTagValues key (fun _ => .ok r) exceptions)

theorem Retagging.exists_retagsBy {f : StockFilter} (retagging : Retagging f) :
    ∃ image, f.RetagsBy image := by
  cases retagging with
  | ignoreTags keys => exact ⟨_, retagsBy_ignoreTags keys⟩
  | renameTag start a b => exact ⟨_, retagsBy_renameTag start a b⟩
  | replaceTagValues key r exceptions => exact ⟨_, retagsBy_replaceTagValues key r exceptions⟩

/-- What renaming there and back leaves is what was there exactly if the renaming does not apply, or
    no tag had the new key before. -/
theorem filterMap_renameTag_back_iff {start a b : String} (differ : a ≠ b) (id : MeterId) :
    (id.tags.filterMap fun t => ((Rule.renameTag start a b).tagImage id.name t).bind
        ((Rule.renameTag start b a).tagImage id.name)) = id.tags ↔
      id.nameStartsWith start = false ∨ ∀ t ∈ id.tags, t.key ≠ b := by
  rw [filterMap_eq_self_iff]
  simp only [Rule.tagImage_renameTag_back_iff differ]
  exact ⟨fun each => or_iff_not_imp_left.2 fun starts t ht => (each t ht).resolve_left starts,
    fun h t ht => h.imp_right fun fresh => fresh t ht⟩

/-- **One rewriting of tags after another.** Dropping some keys and then others is dropping them
    all, and what is dropped under a new name may as well be dropped under the old one too. Renaming
    or replacing by a fixed value a second time changes nothing. Renaming there and back gives back
    the tag list exactly if the name does not begin as asked, or no tag had the new key before. The
    name, type, unit and description always stay. -/
theorem retagging_andThen :
    (∀ keys keys' all : List String, (∀ k, k ∈ all ↔ k ∈ keys' ∨ k ∈ keys) →
      (ignoreTags keys).toFilter.map >=> (ignoreTags keys').toFilter.map
        = (ignoreTags all).toFilter.map) ∧
    (∀ start a b : String,
      (renameTag start a b).toFilter.map >=> (renameTag start a b).toFilter.map
        = (renameTag start a b).toFilter.map) ∧
    (∀ start a b : String, a ≠ b → ∀ id : MeterId, ∃ back : List Tag,
      ((renameTag start a b).toFilter.map >=> (renameTag start b a).toFilter.map) id
        = pure (id.withTags back) ∧
      (back = id.tags ↔ id.nameStartsWith start = false ∨ ∀ t ∈ id.tags, t.key ≠ b)) ∧
    (∀ (start a b : String) (keys all : List String), b ∈ keys →
      (∀ k, k ∈ all ↔ k ∈ keys ∨ k = a) → ∀ id : MeterId, id.nameStartsWith start = true →
        ((renameTag start a b).toFilter.map >=> (ignoreTags keys).toFilter.map) id
          = (ignoreTags all).toFilter.map id) ∧
    (∀ (key r : String) (exceptions : List String),
      let replace := (replaceTagValues key (fun _ => .ok r) exceptions).toFilter
      replace.map >=> replace.map = replace.map) ∧
    ∀ f g : StockFilter, Retagging f → Retagging g → ∀ id : MeterId, ∃ tags : List Tag,
      (f.toFilter.map >=> g.toFilter.map) id = pure (id.withTags tags) := by
  refine ⟨?_, ?_, ?_, ?_, ?_, ?_⟩
  · intro keys keys' all union
    funext id
    exact (retagsBy_ignoreTags keys).andThen_eq (retagsBy_ignoreTags keys')
      (retagsBy_ignoreTags all) fun t _ => Rule.tagImage_ignoreTags_ignoreTags union
  · intro start a b
    funext id
    have rename := retagsBy_renameTag start a b
    exact rename.andThen_eq rename rename fun t _ => Rule.tagImage_renameTag_renameTag
  · intro start a b differ id
    exact ⟨_, (retagsBy_renameTag start a b).andThen (retagsBy_renameTag start b a) id,
      filterMap_renameTag_back_iff differ id⟩
  · intro start a b keys all listed union id starts
    exact (retagsBy_renameTag start a b).andThen_eq (retagsBy_ignoreTags keys)
      (retagsBy_ignoreTags all) fun t _ => Rule.tagImage_renameTag_ignoreTags listed union starts
  · intro key r exceptions replace
    funext id
    have replaces := retagsBy_replaceTagValues key r exceptions
    exact replaces.andThen_eq replaces replaces fun t _ =>
      Rule.tagImage_replaceTagValues_replaceTagValues key r exceptions
  · intro f g hf hg id
    obtain ⟨F, hf⟩ := hf.exists_retagsBy
    obtain ⟨G, hg⟩ := hg.exists_retagsBy
    exact ⟨_, hf.andThen hg id⟩

/-- Methods are renamed to verbs and back, which is undone unless there was a verb already; and
    whoever drops verbs then drops both. -/
theorem retagging_andThen_verbs :
    let id : MeterId := ⟨"http.requests", .timer,
      [⟨"method", "GET"⟩, ⟨"host", "h1"⟩, ⟨"method", "HEAD"⟩], some "s", none⟩
    let mixed : MeterId := id.withTags (id.tags ++ [⟨"verb", "PUT"⟩])
    let toVerb := (renameTag "http" "method" "verb").toFilter.map
    let toMethod := (renameTag "http" "verb" "method").toFilter.map
    (toVerb >=> toMethod) id = pure id ∧
    (∃ back, (toVerb >=> toMethod) mixed = pure (mixed.withTags back) ∧ back ≠ mixed.tags) ∧
    (toVerb >=> (ignoreTags ["verb"]).toFilter.map) mixed
      = (ignoreTags ["verb", "method"]).toFilter.map mixed ∧
    (ignoreTags ["host"]).toFilter.map >=> (ignoreTags ["verb", "host"]).toFilter.map
      = (ignoreTags ["host", "verb"]).toFilter.map ∧
    ∃ tags, (toVerb >=> toVerb) mixed = pure (mixed.withTags tags) := by
  intro id mixed toVerb toMethod
  obtain ⟨dropped, -, backs, renamed, -, kept⟩ := retagging_andThen
  have back := backs "http" "method" "verb" (by decide)
  refine ⟨?_, ?_, ?_, ?_, kept _ _ (.renameTag ..) (.renameTag ..) mixed⟩
  · obtain ⟨tags, ran, undone⟩ := back id
    rw [undone.2 (Or.inr (by decide))] at ran
    exact ran
  · obtain ⟨tags, ran, undone⟩ := back mixed
    exact ⟨tags, ran, fun same => absurd (undone.1 same) (by decide)⟩
  · exact renamed "http" "method" "verb" ["verb"] ["verb", "method"] (by decide) (by simp) mixed
      (by decide)
  · exact dropped ["host"] ["verb", "host"] ["host", "verb"] fun k => by grind

end StockFilter

end MeterGate
