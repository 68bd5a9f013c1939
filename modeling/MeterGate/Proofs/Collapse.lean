import MeterGate.Proofs.TagImages

set_option autoImplicit false

/-! # Collapsed tags

A rule that replaces the values of a tag leaves it with few: the replacement and the exceptions.
They stay the only ones if no rule behind it writes the tag (`Rule.takesOnly_mapAll`). A limit on
the tag sees ids as all rules together have mapped them, so one that allows as many values as these,
wherever it stands, is never exceeded. It then only takes note of values (`Rule.accept_with_room`):
what follows it could be any filter (`Rule.course_set`), and its warning is never given
(`Rule.count_after`). -/

namespace MeterGate

/-! ## Values of a tag -/

/-- All tags of an id with a given key have one of the given values. -/
def MeterId.TakesOnly (key : String) (values : List String) (id : MeterId) : Prop :=
  ∀ t ∈ id.tags, t.key = key → t.value ∈ values

namespace TagCap.Limit

variable {limit : Limit} {values : List String}

theorem mem_of_valueOf? {id : MeterId} {v : String} (only : id.TakesOnly limit.key values)
    (h : limit.valueOf? id = some v) : v ∈ values := by
  unfold valueOf? at h
  split at h
  · obtain ⟨t, found, rfl⟩ := Option.map_eq_some_iff.1 h
    exact only t (List.mem_of_find?_eq_some found) (by simpa using List.find?_some found)
  · cases h

theorem card_valuesAmong_le {ids : List MeterId}
    (only : ∀ id ∈ ids, id.TakesOnly limit.key values) :
    (limit.valuesAmong ids).card ≤ values.toFinset.card := by
  refine Finset.card_le_card fun v hv => ?_
  obtain ⟨id, hid, brought⟩ := List.mem_filterMap.1 (List.mem_toFinset.1 hv)
  exact List.mem_toFinset.2 (mem_of_valueOf? (only id hid) brought)

end TagCap.Limit

namespace Rule

variable {rule : Rule} {key : String} {values : List String}

/-! ## Rules that write a tag -/

/-- Whether a rule gives tags a key, or gives the tags of a key other values. -/
def writes (key : String) : Rule → Bool
  | commonTags tags => tags.any (·.key = key)
  | renameTag _ _ toKey => toKey = key
  | replaceTagValues key' _ _ => key' = key
  | _ => false

/-- A tag with a key that a rule does not write was the same before the rule. -/
theorem eq_of_tagImage (silent : rule.writes key = false) {name : String} {u t : Tag}
    (image : rule.tagImage name u = some t) (keyed : t.key = key) : u = t := by
  cases rule with
  | renameTag start fromKey toKey =>
      have other : toKey ≠ key := of_decide_eq_false silent
      obtain rfl := Option.some.inj image
      unfold Tag.renameKey at keyed ⊢
      split
      · split
        · next starts renamed =>
            rw [if_pos starts, if_pos renamed] at keyed
            exact absurd keyed other
        · rfl
      · rfl
  | ignoreTags keys =>
      simp only [tagImage] at image
      split at image
      · cases image
      · exact Option.some.inj image
  | replaceTagValues key' replacement exceptions =>
      have other : key' ≠ key := of_decide_eq_false silent
      obtain rfl := Option.some.inj image
      split
      · rfl
      · next replaced =>
          rw [if_neg replaced] at keyed
          exact absurd ((not_not.1 (not_or.1 replaced).1).symm.trans keyed) other
  | _ => exact Option.some.inj image

theorem key_ne_of_mem_added (silent : rule.writes key = false) {t : Tag} (h : t ∈ rule.added) :
    t.key ≠ key := by
  cases rule with
  | commonTags tags =>
      have other : ¬ decide (t.key = key) = true := List.any_eq_false.1 silent t h
      exact fun keyed => other (decide_eq_true keyed)
  | _ => cases h

theorem takesOnly_mapId (silent : rule.writes key = false) {id : MeterId}
    (only : id.TakesOnly key values) : (rule.mapId id).TakesOnly key values := by
  intro t ht keyed
  rw [mapId_eq] at ht
  rcases List.mem_append.1 ht with ht | ht
  · obtain ⟨u, hu, image⟩ := List.mem_filterMap.1 ht
    obtain rfl := eq_of_tagImage silent image keyed
    exact only u hu keyed
  · exact absurd keyed (key_ne_of_mem_added silent ht)

theorem takesOnly_replaceTagValues (key replacement : String) (exceptions : List String)
    (id : MeterId) : ((replaceTagValues key replacement exceptions).mapId id).TakesOnly key
      (replacement :: exceptions) := by
  intro t ht keyed
  obtain ⟨u, -, rfl⟩ := List.mem_map.1 ht
  split at keyed
  · next kept =>
      rw [if_pos kept]
      exact List.mem_cons_of_mem _ (kept.resolve_left fun other => other keyed)
  · next replaced =>
      rw [if_neg replaced]
      exact List.mem_cons_self

/-- **A collapsed tag.** After a rule that replaces the values of a tag, and further rules that do
    not write it, it has the replacement or an exception for its value. -/
theorem takesOnly_mapAll {before after : List Rule} {replacement : String}
    {exceptions : List String} (silent : ∀ rule ∈ after, rule.writes key = false) (id : MeterId) :
    (mapAll (before ++ replaceTagValues key replacement exceptions :: after) id).TakesOnly key
      (replacement :: exceptions) := by
  have replaced := takesOnly_replaceTagValues key replacement exceptions (mapAll before id)
  unfold mapAll at replaced ⊢
  rw [List.foldl_append, List.foldl_cons]
  generalize (replaceTagValues key replacement exceptions).mapId _ = mapped at replaced ⊢
  induction after generalizing mapped with
  | nil => exact replaced
  | cons rule rest ih =>
      obtain ⟨here, there⟩ := List.forall_mem_cons.1 silent
      exact ih there _ (takesOnly_mapId here replaced)

theorem takesOnly_mappedIds {rules : List Rule}
    (collapsed : ∀ id, (mapAll rules id).TakesOnly key values)
    (calls : List (MeterId × DistributionConfig)) :
    ∀ id ∈ mappedIds rules calls, id.TakesOnly key values := by
  intro id h
  obtain ⟨call, -, rfl⟩ := List.mem_map.1 h
  exact collapsed call.1

/-! ## Limits with room -/

theorem passed_sublist (rule : Rule) (ids : List MeterId) : (rule.passed ids).Sublist ids := by
  induction ids using List.reverseRecOn with
  | nil => exact List.Sublist.refl _
  | append_singleton ids last ih =>
      rw [passed_concat]
      refine ih.append ?_
      split
      · exact List.Sublist.refl _
      · exact List.nil_sublist _

section Room

variable {name : String} {max : UInt64} {overflow : Rule} {s₀ : Store} {ids : List MeterId}
  {w : World Store} (room : values.toFinset.card ≤ max.toNat)
  (tracks : (maximumAllowableTags name key max overflow).Tracks s₀ ids w.state)
include room tracks

/-- A limit with room for all values that a tag takes lets every id pass. It takes note of its value
    and does nothing else, whatever filter follows it. -/
theorem accept_with_room {id : MeterId} (only : ∀ x ∈ ids ++ [id], x.TakesOnly key values) :
    ∃ w', w'.events = w.events ∧ ∀ other : Filter Store,
      TagCap.accept (Store.valueCell (overflow.build s₀).2.values.length) ⟨name, key, max.toNat⟩
        other id w = .ok .neutral w' := by
  let cell := Store.valueCell (overflow.build s₀).2.values.length
  let limit : TagCap.Limit := ⟨name, key, max.toNat⟩
  cases value : limit.valueOf? id with
  | none => exact ⟨w, rfl, fun other => TagCap.accept_of_none value w⟩
  | some v =>
      have few := (limit.card_valuesAmong_le only).trans room
      rw [TagCap.Limit.valuesAmong, List.filterMap_append,
        List.filterMap_cons_some value, List.filterMap_nil] at few
      have fits : ¬ ((cell.get w.state).offer limit.max v).isOver limit.max = true := by
        rw [((reads_of_tracks tracks).offer v).isOver_iff]
        exact Nat.not_lt.2 few
      refine ⟨w.put cell ((cell.get w.state).offer limit.max v), World.events_put _ _ _,
        fun other => (TagCap.accept_of_some value w).trans (if_neg fits)⟩

theorem configure_with_room (only : ∀ x ∈ ids, x.TakesOnly key values) (id : MeterId)
    (c : DistributionConfig) (other : Filter Store) :
    TagCap.configure (Store.valueCell (overflow.build s₀).2.values.length) ⟨name, key, max.toNat⟩
      other id c w = .ok c w := by
  rw [TagCap.configure_apply, if_neg]
  rw [(reads_of_tracks tracks).isOver_iff]
  exact Nat.not_lt.2 ((TagCap.Limit.card_valuesAmong_le only).trans room)

/-- A limit with room for all values that a tag takes holds some of them, and never trips. -/
theorem record_with_room (only : ∀ x ∈ ids, x.TakesOnly key values) :
    let record := (Store.valueCell (overflow.build s₀).2.values.length).get w.state
    (∀ v ∈ record.values, v ∈ values) ∧ record.tripped = false := by
  intro record
  have reads : record.Reads _ _ := reads_of_tracks tracks
  refine ⟨fun v hv => ?_, ?_⟩
  · obtain ⟨id, hid, brought⟩ := List.mem_filterMap.1 ((reads.mem_iff v).1 hv)
    exact TagCap.Limit.mem_of_valueOf? (only id hid) brought
  · rw [Bool.eq_false_iff, ne_eq, reads.tripped_iff]
    exact Nat.not_lt.2 ((TagCap.Limit.card_valuesAmong_le only).trans room)

end Room

end Rule

/-! ## Another filter behind the limit -/

/-- The mapping pass asks a filter for no more than its mapping. -/
theorem Chain.map_set {σ : Type} {chain : Chain σ} {i : Nat} {f f' : Filter σ}
    (listed : chain[i]? = some f) (same : f'.map = f.map) :
    Chain.map (chain.set i f') = Chain.map chain := by
  induction chain generalizing i with
  | nil => cases listed
  | cons g rest ih =>
      funext id
      cases i with
      | zero =>
          obtain rfl := Option.some.inj listed
          show f'.map id >>= _ = _
          rw [same]
          rfl
      | succ i =>
          show g.map id >>= Chain.map (rest.set i f') = _
          rw [ih listed]
          rfl

namespace Rule

variable {rule : Rule} {key : String} {values : List String}

theorem getElem?_buildAll (rules : List Rule) (s₀ : Store) (i : Nat) :
    (buildAll rules s₀).1[i]?
      = rules[i]?.map fun rule => (rule.build (buildAll (rules.take i) s₀).2).1 := by
  induction rules generalizing s₀ i with
  | nil => rfl
  | cons rule rest ih =>
      cases i with
      | zero => rfl
      | succ i => exact ih (rule.build s₀).2 i

theorem TracksAll.tracks_of_getElem? {rules : List Rule} {s₀ s : Store} {ids : List MeterId}
    (tracks : TracksAll s₀ rules ids s) {i : Nat} (listed : rules[i]? = some rule) :
    ∃ reached : List MeterId, reached.Sublist ids ∧
      rule.Tracks (buildAll (rules.take i) s₀).2 reached s := by
  induction rules generalizing s₀ ids i with
  | nil => cases listed
  | cons first rest ih =>
      cases i with
      | zero =>
          obtain rfl := Option.some.inj listed
          exact ⟨ids, List.Sublist.refl _, tracks.1⟩
      | succ i =>
          obtain ⟨reached, someOf, here⟩ := ih tracks.2 listed
          exact ⟨reached, someOf.trans (first.passed_sublist ids), here⟩

section Replaced

variable {rules : List Rule} (flat : ∀ rule ∈ rules, rule.Flat) {name : String} {max : UInt64}
  {overflow : Rule} (room : values.toFinset.card ≤ max.toNat) {i : Nat}
  (listed : rules[i]? = some (maximumAllowableTags name key max overflow))
  {s₀ : Store} {place : Nat} {limit : TagCap.Limit} {behind : StockFilter}
  (built : (buildAll rules s₀).1[i]? = some (.tagCap place limit behind))
include flat room listed built

theorem accept_set {ids : List MeterId} {id : MeterId}
    (only : ∀ x ∈ ids ++ [id], x.TakesOnly key values) {w : World Store}
    (tracks : TracksAll s₀ rules ids w.state) (other : Filter Store) :
    Chain.accept ((StockFilter.toChain (buildAll rules s₀).1).set i
        (.tagCap (Store.valueCell place) limit other)) id w
      = Chain.accept (StockFilter.toChain (buildAll rules s₀).1) id w := by
  induction rules generalizing s₀ ids w i with
  | nil => cases listed
  | cons rule rest ih =>
      obtain ⟨here, flatRest⟩ := List.forall_mem_cons.1 flat
      cases i with
      | zero =>
          cases Option.some.inj listed
          cases Option.some.inj built
          -- the limit itself, which does the same whatever stands behind it
          obtain ⟨w', -, asked⟩ := accept_with_room room tracks.1 only
          exact (Chain.accept_cons (asked other)).trans (Chain.accept_cons (asked _)).symm
      | succ i =>
          -- a rule before the limit is in both chains
          obtain ⟨w', asked, -, there⟩ := accept_head here s₀ ids id tracks
          refine (Chain.accept_cons asked).trans (Eq.trans ?_ (Chain.accept_cons asked).symm)
          split
          · exact ih flatRest listed built
              (fun x hx => only x (((rule.passed_sublist ids).append_right [id]).subset hx)) there
          · rfl

theorem configure_set {ids : List MeterId} (only : ∀ x ∈ ids, x.TakesOnly key values)
    {w : World Store} (tracks : TracksAll s₀ rules ids w.state) (id : MeterId)
    (c : DistributionConfig) (other : Filter Store) :
    Chain.configure ((StockFilter.toChain (buildAll rules s₀).1).set i
        (.tagCap (Store.valueCell place) limit other)) id c w
      = Chain.configure (StockFilter.toChain (buildAll rules s₀).1) id c w := by
  induction rules generalizing s₀ ids i c with
  | nil => cases listed
  | cons rule rest ih =>
      obtain ⟨here, flatRest⟩ := List.forall_mem_cons.1 flat
      cases i with
      | zero =>
          cases Option.some.inj listed
          cases Option.some.inj built
          have left := configure_with_room room tracks.1 only id c
          exact (Chain.configure_cons (left other)).trans (Chain.configure_cons (left _)).symm
      | succ i =>
          have left := configure_build here s₀ ids id c tracks.1
          refine (Chain.configure_cons left).trans (Eq.trans ?_ (Chain.configure_cons left).symm)
          exact ih flatRest listed built (fun x hx => only x ((rule.passed_sublist ids).subset hx))
            tracks.2 _

theorem register_set (collapsed : ∀ id, (mapAll rules id).TakesOnly key values) {ids : List MeterId}
    (only : ∀ x ∈ ids, x.TakesOnly key values) {w : World Store}
    (tracks : TracksAll s₀ rules ids w.state) (id : MeterId) (initial : DistributionConfig)
    (other : Filter Store) :
    (Chain.toFilter ((StockFilter.toChain (buildAll rules s₀).1).set i
        (.tagCap (Store.valueCell place) limit other))).register id initial w
      = (chain rules s₀).register id initial w := by
  let replaced := Chain.toFilter ((StockFilter.toChain (buildAll rules s₀).1).set i
    (.tagCap (Store.valueCell place) limit other))
  have onlyAll : ∀ x ∈ ids ++ [mapAll rules id], x.TakesOnly key values :=
    List.forall_mem_append.2 ⟨only, List.forall_mem_singleton.2 (collapsed id)⟩
  have found : (StockFilter.toChain (buildAll rules s₀).1)[i]?
      = some (StockFilter.tagCap place limit behind).toFilter := by
    rw [StockFilter.toChain_eq_map, List.getElem?_map, built]
    rfl
  have map : replaced.map = (chain rules s₀).map := by
    show Chain.map (List.set _ i _) = Chain.map _
    exact Chain.map_set found rfl
  have mapped : (chain rules s₀).map id = pure (mapAll rules id) := map_buildAll rules s₀ id
  have accept : replaced.accept (mapAll rules id) w = (chain rules s₀).accept (mapAll rules id) w :=
    accept_set flat room listed built onlyAll tracks other
  obtain ⟨w₁, answered, noted⟩ := accept_buildAll flat s₀ ids (mapAll rules id) tracks
  have asked : (chain rules s₀).accept (mapAll rules id) w = .ok _ w₁ := answered
  have configure : replaced.configureIfUsed (mapAll rules id) initial w₁
      = (chain rules s₀).configureIfUsed (mapAll rules id) initial w₁ := by
    have settings : replaced.configure (mapAll rules id) initial w₁
        = (chain rules s₀).configure (mapAll rules id) initial w₁ :=
      configure_set flat room listed built onlyAll noted _ initial other
    unfold Filter.configureIfUsed
    split
    · simp only [map_eq_pure_bind, Eval.bind_apply, settings]
    · rfl
  show replaced.register id initial w = _
  simp only [Filter.register, Eval.bind_apply, map, mapped, Eval.pure_apply, accept, asked,
    configure]

section Runs

variable (collapsed : ∀ id, (mapAll rules id).TakesOnly key values) {w : World Store}
  (fresh : w.state = (buildAll rules s₀).2) (calls : List (MeterId × DistributionConfig))
include collapsed fresh

/-- After any registrations a limit that has room holds nothing but values of the tag, and has not
    tripped. -/
theorem record_after :
    let record := (Store.valueCell place).get
      ((chain rules s₀).after (calls.map toRequest) w).state
    (∀ v ∈ record.values, v ∈ values) ∧ record.tripped = false := by
  have tracks := tracksAll_after flat s₀ fresh calls
  obtain ⟨reached, someOf, here⟩ := tracks.tracks_of_getElem? listed
  rw [getElem?_buildAll, listed] at built
  cases Option.some.inj built
  exact record_with_room room here fun id hid =>
    takesOnly_mappedIds collapsed calls id (someOf.subset hid)

/-- Over a whole run any other filter could stand behind a limit that has room. -/
theorem course_set (other : Filter Store) :
    (Chain.toFilter ((StockFilter.toChain (buildAll rules s₀).1).set i
        (.tagCap (Store.valueCell place) limit other))).course (calls.map toRequest) w
      = (chain rules s₀).course (calls.map toRequest) w := by
  refine Filter.course_map_congr (fun past call => ?_) calls
  have tracks := tracksAll_after flat s₀ fresh past
  have only := takesOnly_mappedIds collapsed past
  rw [toRequest, Filter.respond_register,
    register_set flat room listed built collapsed only tracks, Filter.respond_register]

end Runs

end Replaced

end Rule

/-! ## The warning -/

theorem World.count_log {σ : Type} {e e' : Event} (other : e ≠ e') (w : World σ) :
    (w.log e).events.count e' = w.events.count e' := by
  rw [World.events_log, List.count_append, List.count_singleton, if_neg (by simpa using other),
    Nat.add_zero]

theorem MetricCap.denial_ne (max : Nat) (id : MeterId) (tripped : Bool) (name key : String)
    (most : Nat) : MetricCap.denial max id tripped ≠ .tagCapTripped name key most := by
  unfold MetricCap.denial
  split <;> exact Event.noConfusion

/-- Before it asks the filter behind it, a tag cap gives no warning but its own. -/
theorem TagCap.count_accept {σ : Type} {cell : Cell σ TagCap.Record} {limit : TagCap.Limit}
    {overflow : Filter σ} {id : MeterId} {e : Event}
    (other : Event.tagCapTripped limit.name limit.key limit.max ≠ e)
    (plain : ∃ reply, overflow.accept id = pure reply) {w w' : World σ} {reply : Reply}
    (asked : TagCap.accept cell limit overflow id w = .ok reply w') :
    w'.events.count e = w.events.count e := by
  obtain ⟨answer, plain⟩ := plain
  cases value : limit.valueOf? id with
  | none =>
      rw [TagCap.accept_of_none value] at asked
      cases asked
      rfl
  | some v =>
      rw [TagCap.accept_of_some value, plain] at asked
      dsimp only at asked
      split at asked
      · cases asked
        split
        · rw [World.events_put]
        · rw [World.count_log other, World.events_put]
      · cases asked
        rw [World.events_put]

namespace Rule

variable {key : String} {values : List String} {name : String} {most : Nat}
  (room : values.toFinset.card ≤ most)
include room

/-- A tag cap with room for all values of its tag gives no warning, and other rules give none that
    could be taken for it. -/
theorem count_accept_build {rule : Rule} (flat : rule.Flat) {s₀ : Store} {ids : List MeterId}
    {id : MeterId} (only : ∀ x ∈ ids ++ [id], x.TakesOnly key values) {w w' : World Store}
    (tracks : rule.Tracks s₀ ids w.state) {reply : Reply}
    (asked : (rule.build s₀).1.toFilter.accept id w = .ok reply w') :
    w'.events.count (.tagCapTripped name key most)
      = w.events.count (.tagCapTripped name key most) := by
  cases limiter : rule.kind.isLimiter with
  | false =>
      rw [accept_build_plain limiter] at asked
      cases asked
      rfl
  | true =>
      cases rule with
      | maximumAllowableMetrics max =>
          have answered := (MetricCap.accept_apply _ _ id w).symm.trans asked
          dsimp only at answered
          split at answered
          · cases answered
            rw [World.count_log (MetricCap.denial_ne _ _ _ _ _ _), World.events_put]
          · cases answered
            rw [World.events_put]
      | maximumAllowableTags name' key' max overflow =>
          by_cases same : Event.tagCapTripped name' key' max.toNat = .tagCapTripped name key most
          · -- it may be another limit than the one asked for, but it has as much room
            cases same
            obtain ⟨w₁, quiet, answered⟩ := accept_with_room room tracks only
            cases (answered _).symm.trans asked
            rw [quiet]
          · exact TagCap.count_accept same ⟨_, accept_build_plain flat _ id⟩ asked
      | _ => cases limiter

theorem count_accept_buildAll {rules : List Rule} (flat : ∀ rule ∈ rules, rule.Flat) {s₀ : Store}
    {ids : List MeterId} {id : MeterId} (only : ∀ x ∈ ids ++ [id], x.TakesOnly key values)
    {w w' : World Store} (tracks : TracksAll s₀ rules ids w.state) {reply : Reply}
    (asked : Chain.accept (StockFilter.toChain (buildAll rules s₀).1) id w = .ok reply w') :
    w'.events.count (.tagCapTripped name key most)
      = w.events.count (.tagCapTripped name key most) := by
  induction rules generalizing s₀ ids w with
  | nil =>
      cases asked
      rfl
  | cons rule rest ih =>
      obtain ⟨here, flatRest⟩ := List.forall_mem_cons.1 flat
      obtain ⟨w₁, first, -, there⟩ := accept_head here s₀ ids id tracks
      have quiet : w₁.events.count (.tagCapTripped name key most) = _ :=
        count_accept_build room here only tracks.1 first
      rw [← quiet]
      replace asked := (Chain.accept_cons first).symm.trans asked
      split at asked
      · exact ih flatRest
          (fun x hx => only x (((rule.passed_sublist ids).append_right [id]).subset hx)) there asked
      · cases asked
        rfl

/-- Over a whole run a tag cap with room gives no warning. -/
theorem count_after {rules : List Rule} (flat : ∀ rule ∈ rules, rule.Flat)
    (collapsed : ∀ id, (mapAll rules id).TakesOnly key values) {s₀ : Store} {w : World Store}
    (fresh : w.state = (buildAll rules s₀).2) (calls : List (MeterId × DistributionConfig)) :
    ((chain rules s₀).after (calls.map toRequest) w).events.count (.tagCapTripped name key most)
      = w.events.count (.tagCapTripped name key most) := by
  induction calls using List.reverseRecOn with
  | nil => rfl
  | append_singleton calls call ih =>
      have tracks := tracksAll_after flat s₀ fresh calls
      obtain ⟨w', answered, noted⟩ :=
        accept_buildAll flat s₀ (mappedIds rules calls) (mapAll rules call.1) tracks
      have only : ∀ x ∈ mappedIds rules calls ++ [mapAll rules call.1], x.TakesOnly key values :=
        List.forall_mem_append.2
          ⟨takesOnly_mappedIds collapsed calls, List.forall_mem_singleton.2 (collapsed call.1)⟩
      have verdict : ∀ id reply, Event.ofVerdict id reply ≠ .tagCapTripped name key most := by
        intro id reply
        unfold Event.ofVerdict
        split <;> exact Event.noConfusion
      rw [List.map_append, List.map_singleton, Filter.after_concat, toRequest,
        Filter.respond_register, register_of_accept flat call.2 answered noted]
      dsimp only
      rw [World.count_log (verdict _ _), ← ih]
      exact count_accept_buildAll room flat only tracks answered

end Rule

namespace ChainConfig

/-- **A collapsed tag stays below its cap.** In a good config a rule replaces the values of a tag,
    and no rule behind it writes the tag. Then a limit on this tag, before or after it in the list,
    that allows as many values as the replacement and the exceptions make is never exceeded, however
    many meters are registered: all values that it ever holds are these, and its flag stays unset.
    The rule behind it is asked in neither pass, since any filter in its place gives the same course
    of responses and worlds. And the warning that the limit is exceeded is never given. -/
theorem tagCap_of_collapsed (c : ChainConfig) (valid : c.validate = .ok ()) (w : World Store)
    (before after : List Rule) (key replacement : String) (exceptions : List String)
    (replaced : c.rules = before ++ .replaceTagValues key replacement exceptions :: after)
    (silent : ∀ rule ∈ after, rule.writes key = false)
    (i : Nat) (name : String) (max : UInt64) (overflow : Rule)
    (listed : c.rules[i]? = some (.maximumAllowableTags name key max overflow))
    (room : (replacement :: exceptions).toFinset.card ≤ max.toNat) :
    ∃ filters built place behind, c.build w = .ok filters built ∧
      filters[i]? = some (.tagCap place ⟨name, key, max.toNat⟩ behind) ∧
      ∀ calls : List (MeterId × DistributionConfig),
        let chain := StockFilter.toChain filters
        let requests := calls.map Rule.toRequest
        let now := (Chain.toFilter chain).after requests built
        let record := (Store.valueCell place).get now.state
        (∀ v ∈ record.values, v = replacement ∨ v ∈ exceptions) ∧ record.tripped = false ∧
        (∀ other : Filter Store,
          (Chain.toFilter (chain.set i (.tagCap (Store.valueCell place) ⟨name, key, max.toNat⟩
              other))).course requests built
            = (Chain.toFilter chain).course requests built) ∧
        now.events.count (.tagCapTripped name key max.toNat)
          = built.events.count (.tagCapTripped name key max.toNat) := by
  have flat := flat_of_valid valid
  have collapsed : ∀ id, (Rule.mapAll c.rules id).TakesOnly key (replacement :: exceptions) := by
    rw [replaced]
    exact Rule.takesOnly_mapAll silent
  obtain ⟨place, behind, built⟩ : ∃ place behind, (Rule.buildAll c.rules w.state).1[i]?
      = some (.tagCap place ⟨name, key, max.toNat⟩ behind) := by
    rw [Rule.getElem?_buildAll, listed]
    exact ⟨_, _, rfl⟩
  have fresh : (World.log (.chainBuilt c.rules.length)
      { w with state := (Rule.buildAll c.rules w.state).2 }).state
        = (Rule.buildAll c.rules w.state).2 := rfl
  refine ⟨_, _, place, behind, build_of_valid valid w, built, fun calls => ?_⟩
  obtain ⟨held, untripped⟩ := Rule.record_after flat room listed built collapsed fresh calls
  exact ⟨fun v hv => List.mem_cons.1 (held v hv), untripped,
    Rule.course_set flat room listed built collapsed fresh calls,
    Rule.count_after room flat collapsed fresh calls⟩

/-- The limit stands before the rule that collapses the tag, and three URIs come, where it allows
    two. -/
theorem tagCap_of_collapsed_three_uris :
    let c : ChainConfig := { rules := [
      .maximumAllowableTags "http.requests" "uri" 2 .deny,
      .replaceTagValues "uri" "other" ["/home"], .ignoreTags ["host"]] }
    let calls := ["/home", "/a", "/b"].map fun uri =>
      ((⟨"http.requests", .counter, [⟨"uri", uri⟩], none, none⟩ : MeterId), DistributionConfig.none)
    c.validate = .ok () ∧ (∀ rule ∈ [Rule.ignoreTags ["host"]], rule.writes "uri" = false) ∧
    ["other", "/home"].toFinset.card ≤ (2 : UInt64).toNat ∧
    ∃ filters built place behind, c.build (.fresh {}) = .ok filters built ∧
      filters[0]? = some (.tagCap place ⟨"http.requests", "uri", 2⟩ behind) ∧
      let chain := StockFilter.toChain filters
      let unlimited := chain.set 0 (.tagCap (Store.valueCell place) ⟨"http.requests", "uri", 2⟩
        (.watched "unlimited" .passThrough))
      let now := (Chain.toFilter chain).after (calls.map Rule.toRequest) built
      (∀ v ∈ ((Store.valueCell place).get now.state).values, v = "other" ∨ v ∈ ["/home"]) ∧
      (Chain.toFilter unlimited).course (calls.map Rule.toRequest) built
        = (Chain.toFilter chain).course (calls.map Rule.toRequest) built := by
  intro c calls
  have valid : c.validate = .ok () := by decide +kernel
  have silent : ∀ rule ∈ [Rule.ignoreTags ["host"]], rule.writes "uri" = false := by decide
  have room : ["other", "/home"].toFinset.card ≤ (2 : UInt64).toNat := by decide
  obtain ⟨filters, built, place, behind, ran, found, run⟩ :=
    tagCap_of_collapsed c valid (.fresh {}) [.maximumAllowableTags "http.requests" "uri" 2 .deny]
      [.ignoreTags ["host"]] "uri" "other" ["/home"] rfl silent 0 "http.requests" 2 .deny rfl room
  obtain ⟨held, -, anyhow, -⟩ := run calls
  exact ⟨valid, silent, room, filters, built, place, behind, ran, found, held, anyhow _⟩

end ChainConfig

end MeterGate
