import MeterGate.Proofs.Decoding

set_option autoImplicit false

/-! # Tables are read entry by entry

Each reader of a table is a fold of one step for each entry, with what remains to be done after the
last one. So what a reader makes of a table can be split at any entry: an entry whose step changes
nothing may as well not be there (`Value.foldlM_skip`), and one entry may be replaced by another
with the same step (`Value.foldlM_replace`). In the same way a rule is read off a list of fields
with values, whether it is a table or an array (`RuleDraft.readAll`). -/

namespace MeterGate

namespace Value

/-! ## Steps -/

/-- What an entry gives of a tag. -/
def tagStep (parts : Option String × Option String) (e : String × Value) :
    Except DecodeFault (Option String × Option String) :=
  if e.1 = "key" then e.2.asText >>= fun s => pure (some s, parts.2)
  else if e.1 = "value" then e.2.asText >>= fun s => pure (parts.1, some s)
  else pure parts

/-- What an entry gives of the kind of a rule. -/
def kindStep (known : Option RuleKind) (e : String × Value) :
    Except DecodeFault (Option RuleKind) :=
  if e.1 = "type" then some <$> e.2.asRuleKind
  else check (e.2.numberFault? heldInteger?) >>= fun _ => pure known

/-- What an entry gives of a log level. -/
def levelStep (known : Option String) (e : String × Value) : Except DecodeFault (Option String) :=
  if e.1 = "log_level" then some <$> e.2.asText
  else check (e.2.numberFault? passedInteger?) >>= fun _ => pure known

/-- What an entry gives of a config. -/
def partsStep (parts : Option String × Option (List Rule)) (e : String × Value) :
    Except DecodeFault (Option String × Option (List Rule)) :=
  if e.1 = "filters" then e.2.asArrayOf asRule >>= fun rules => pure (parts.1, some rules)
  else if e.1 = "observability" then e.2.asObservability >>= fun level => pure (level, parts.2)
  else check (e.2.numberFault? passedInteger?) >>= fun _ => pure parts

/-! ## Readers as folds -/

theorem tagParts_eq_foldlM (entries : List (String × Value))
    (parts : Option String × Option String) :
    tagParts entries parts = entries.foldlM tagStep parts := by
  induction entries generalizing parts with
  | nil => rfl
  | cons e rest ih =>
      rw [List.foldlM_cons, tagParts, tagStep]
      split
      · simp only [bind_assoc, pure_bind, ih]
      · split
        · simp only [bind_assoc, pure_bind, ih]
        · simp only [pure_bind, ih]

theorem kindOfEntries_eq_foldlM (entries : List (String × Value)) (known : Option RuleKind) :
    kindOfEntries entries known = entries.foldlM kindStep known >>= required "type" := by
  induction entries generalizing known with
  | nil => rfl
  | cons e rest ih =>
      rw [List.foldlM_cons, kindOfEntries, kindStep]
      split
      · simp only [map_eq_pure_bind, bind_assoc, pure_bind, ih]
      · simp only [bind_assoc, pure_bind, ih]

theorem logLevelOfEntries_eq_foldlM (entries : List (String × Value)) (known : Option String) :
    logLevelOfEntries entries known = entries.foldlM levelStep known := by
  induction entries generalizing known with
  | nil => rfl
  | cons e rest ih =>
      rw [List.foldlM_cons, logLevelOfEntries, levelStep]
      split
      · simp only [map_eq_pure_bind, bind_assoc, pure_bind, ih]
      · simp only [bind_assoc, pure_bind, ih]

theorem configParts_eq_foldlM (entries : List (String × Value))
    (parts : Option String × Option (List Rule)) :
    configParts entries parts = entries.foldlM partsStep parts := by
  induction entries generalizing parts with
  | nil => rfl
  | cons e rest ih =>
      rw [List.foldlM_cons, configParts, partsStep]
      split
      · simp only [bind_assoc, pure_bind, ih]
      · split
        · simp only [bind_assoc, pure_bind, ih]
        · simp only [bind_assoc, pure_bind, ih]

theorem eachOf_eq_mapM {α : Type} (read : Value → Except DecodeFault α) (items : List Value) :
    eachOf read items = items.mapM read := by
  induction items with
  | nil => rfl
  | cons v rest ih =>
      rw [List.mapM_cons, eachOf, ih]
      rfl

/-! ## The kind of a rule -/

theorem check_eq_ok {fault? : Option DecodeFault} {a : Unit} :
    check fault? = .ok a ↔ fault? = none := by
  cases fault? with
  | none => simp [check]
  | some fault => simp [check]

/-- Only the text of its name stands for a kind. -/
theorem eq_of_asRuleKind {v : Value} {kind : RuleKind} (h : v.asRuleKind = .ok kind) :
    v = text kind.label := by
  cases v with
  | text s =>
      rw [asRuleKind, asNameOf] at h
      split at h
      · next found =>
          cases h
          have named := List.find?_some found
          rw [beq_iff_eq] at named
          rw [named]
      · cases h
  | integer n =>
      rw [asRuleKind] at h
      split at h
      · cases h
      · cases h
  | _ => cases h

/-- The kind that is found in a table is what one of its `type` entries says. -/
theorem type_of_kindOfEntries {entries : List (String × Value)} {known : Option RuleKind}
    {kind : RuleKind} (h : kindOfEntries entries known = .ok kind) :
    known = some kind ∨ ("type", text kind.label) ∈ entries := by
  induction entries generalizing known with
  | nil =>
      cases known with
      | none => cases h
      | some found =>
          cases h
          exact .inl rfl
  | cons e rest ih =>
      obtain ⟨k, v⟩ := e
      rw [kindOfEntries] at h
      split at h
      · next is_type =>
          obtain ⟨found, read, told⟩ := ok_of_bind_ok h
          rcases ih told with same | listed
          · cases same
            rw [is_type, eq_of_asRuleKind read]
            exact .inr List.mem_cons_self
          · exact .inr (List.mem_cons_of_mem _ listed)
      · obtain ⟨-, -, told⟩ := ok_of_bind_ok h
        exact (ih told).imp_right (List.mem_cons_of_mem _)

/-- Once a kind has been found, everything in the table is plain. -/
theorem plain_of_kindOfEntries {entries : List (String × Value)} {known : Option RuleKind}
    {kind : RuleKind} (h : kindOfEntries entries known = .ok kind) :
    ∀ e ∈ entries, e.2.Plain := by
  induction entries generalizing known with
  | nil => simp
  | cons e rest ih =>
      obtain ⟨k, v⟩ := e
      rw [kindOfEntries] at h
      split at h
      · obtain ⟨found, read, told⟩ := ok_of_bind_ok h
        refine List.forall_mem_cons.2 ⟨?_, ih told⟩
        rw [eq_of_asRuleKind read]
        rfl
      · obtain ⟨_, passed, told⟩ := ok_of_bind_ok h
        refine List.forall_mem_cons.2 ⟨?_, ih told⟩
        rwa [check_eq_ok] at passed

/-! ## One entry among others -/

section

variable {α β : Type} {step : β → α → Except DecodeFault β}

theorem foldlM_skip {e : α} (h : ∀ b, step b e = pure b) (front back : List α) (b : β) :
    (front ++ e :: back).foldlM step b = (front ++ back).foldlM step b := by
  simp only [List.foldlM_append, List.foldlM_cons, h, pure_bind]

theorem foldlM_replace {e e' : α} (h : ∀ b, step b e' = step b e) (front back : List α) (b : β) :
    (front ++ e' :: back).foldlM step b = (front ++ e :: back).foldlM step b := by
  simp only [List.foldlM_append, List.foldlM_cons, h]

end

end Value

/-! ## The fields of a rule -/

/-- The fields of a kind that some entries give. -/
def RuleKind.given (kind : RuleKind) (entries : List (String × Value)) :
    List (RuleField × Value) :=
  entries.filterMap fun e => (kind.field? e.1).map (·, e.2)

/-- Read the fields of a list with their values, in order. -/
def RuleDraft.readAll (fields : List (RuleField × Value)) (d : RuleDraft) :
    Except DecodeFault RuleDraft :=
  fields.foldlM (fun d p => d.readAny p.1 p.2) d

namespace Value

theorem draftOfEntries_eq_readAll (kind : RuleKind) (entries : List (String × Value))
    (d : RuleDraft) : draftOfEntries kind entries d = RuleDraft.readAll (kind.given entries) d := by
  induction entries generalizing d with
  | nil => rfl
  | cons e rest ih =>
      rw [draftOfEntries_cons, RuleKind.given, List.filterMap_cons]
      cases kind.field? e.1 with
      | none => exact ih d
      | some field => exact bind_congr ih

/-- The rule of the first fields of a kind, if an array has so many items. -/
def finishFirst (kind : RuleKind) (length : Nat) (d : RuleDraft) : Except DecodeFault Rule :=
  if kind.fields.length < length then .error (.tooLong length kind.fields.length)
  else finishItems kind length (kind.fields.drop length) d

theorem draftOfItems_eq_readAll (kind : RuleKind) (length : Nat) (fields : List RuleField)
    (items : List Value) (d : RuleDraft) :
    draftOfItems kind length fields items d =
      RuleDraft.readAll (fields.zip items) d >>= fun d =>
        if fields.length < items.length then .error (.tooLong length kind.fields.length)
        else finishItems kind length (fields.drop items.length) d := by
  induction items generalizing fields d with
  | nil =>
      rw [draftOfItems, List.zip_nil_right]
      rfl
  | cons v rest ih =>
      cases fields with
      | nil => rfl
      | cons field fields =>
          rw [draftOfItems_cons, List.zip_cons_cons, RuleDraft.readAll, List.foldlM_cons,
            bind_assoc]
          simp only [List.length_cons, Nat.add_lt_add_iff_right, List.drop_succ_cons]
          exact bind_congr (ih fields)

/-- A rule's table is read in two rounds: the first one finds the kind. -/
theorem asRule_table_eq (entries : List (String × Value)) :
    asRule (table entries) = kindOfEntries entries none >>= fun kind =>
      RuleDraft.readAll (kind.given entries) {} >>= fun d => d.finish kind := by
  simp only [asRule, draftOfEntries_eq_readAll]

theorem asRule_array_eq (kind : RuleKind) (items : List Value) :
    asRule (array (text kind.label :: items)) =
      check (itemsNumberFault? heldInteger? items) >>= fun _ =>
        RuleDraft.readAll (kind.fields.zip items) {} >>= finishFirst kind items.length := by
  rw [asRule, asRuleKind, asNameOf, RuleKind.ofLabel?_label]
  exact bind_congr fun _ => draftOfItems_eq_readAll kind _ _ _ _

end Value

end MeterGate
