import MeterGate.Load
import MeterGate.Proofs.Acceptance

set_option autoImplicit false

/-! # Loading and building agree

A text is loaded with the same result whether it is held in memory or in a file, except that a fault
is wrapped differently (`ChainConfig.ofText_ofFile_cases`). What is loaded builds, whole, and what
does not pass its check builds nothing: building checks once more (`ChainConfig.loaders_agree`).

The check goes through a hash table, and which of several inverted ranges it reports depends on the
order in which this is done, which is another one each time. So statements are for every order, and
where two calls meet different orders, they differ at most in this
(`ChainConfig.eq_or_otherRange`). -/

namespace MeterGate

/-! ## Texts in files -/

theorem fromUTF8?_toUTF8 (s : String) : String.fromUTF8? s.toUTF8 = some s := by
  rw [String.fromUTF8?, dif_pos]
  rfl

theorem FileTree.readText_of_held {current : List (String × FileTree)} {path s : String}
    (held : lookUp current path = .ok (.file s.toUTF8)) : readText current path = .ok s := by
  rw [readText, held]
  simp only [fromUTF8?_toUTF8]

theorem FileTree.lookUp_beside {current : List (String × FileTree)} {name : String}
    {node : FileTree} (parts : components name = [name]) (relative : name.startsWith "/" = false)
    (no_nul : name.toList.contains '\x00' = false) (short : name.utf8ByteSize ≤ maxName)
    (plain : name ≠ "" ∧ name ≠ "." ∧ name ≠ "..")
    (listed : current.find? (·.1 == name) = some (name, node)) :
    lookUp current name = .ok node := by
  have fits : ¬ maxPath < name.utf8ByteSize := by
    simp only [maxPath, maxName] at short ⊢
    omega
  rw [lookUp, no_nul, if_neg (by decide), if_neg fits, if_neg plain.1, relative, parts,
    if_neg (by decide), find]
  simp only [plain, decide_false, Bool.or_self, Bool.false_eq_true, if_false, listed,
    Nat.not_lt.2 short]
  cases node <;> rfl

/-! ## Faults of the check -/

/-- Two faults name inverted ranges of different meters. -/
def ConfigFault.OtherRange (fault fault' : ConfigFault) : Prop :=
  ∃ max min type start max' min' type' start',
    fault = .invertedRange max min type start ∧ fault' = .invertedRange max' min' type' start' ∧
      (type, start) ≠ (type', start')

namespace ChainConfig

/-- A config is refused for the same reason each time, unless several of its ranges are inverted. -/
theorem eq_or_otherRange {c : ChainConfig} {order order' : TableOrder} {fault fault' : ConfigFault}
    (told : c.validate order = .error fault) (told' : c.validate order' = .error fault') :
    fault = fault' ∨ fault.OtherRange fault' := by
  cases faulty : c.ruleFault? with
  | some first =>
      rw [validate_of_ruleFault? faulty] at told told'
      exact .inl (Except.error.inj (told.symm.trans told'))
  | none =>
      obtain ⟨b, -, found⟩ := (exists_validate_eq_error_iff faulty fault).1 ⟨order, told⟩
      obtain ⟨b', -, found'⟩ := (exists_validate_eq_error_iff faulty fault').1 ⟨order', told'⟩
      by_cases same : (b.type, b.start) = (b'.type, b'.start)
      · obtain ⟨typed, started⟩ := Prod.mk.inj same
        have alike : b.sameMeters = b'.sameMeters := by
          funext other
          rw [ExpectedBound.sameMeters, ExpectedBound.sameMeters, typed, started]
        rw [invertedAt?, ExpectedBound.lastFor?, ExpectedBound.lastFor?, alike, typed,
          started] at found
        exact .inl (Option.some.inj (found.symm.trans found'))
      · obtain ⟨max, min, rfl⟩ := eq_of_invertedAt? found
        obtain ⟨max', min', rfl⟩ := eq_of_invertedAt? found'
        exact .inr ⟨_, _, _, _, _, _, _, _, rfl, rfl, same⟩

/-! ## Loading -/

/-- Text in memory and the same text in a file are loaded alike: neither parses, or both parse to a
    config that does not pass its check, or both give one that does. -/
theorem ofText_ofFile_cases {current : List (String × FileTree)} {path s : String}
    (held : FileTree.lookUp current path = .ok (.file s.toUTF8)) :
    (∃ source, ∀ order, ofText s order = .error (.unparsed "<string>" source) ∧
      ofFile current path order = .error (.unparsed path source)) ∨
    (∃ c : ChainConfig, ∀ order, ∃ fault, c.validate order = .error fault ∧
      ofText s order = .error (.config fault) ∧
      ofFile current path order = .error (.invalid path fault)) ∨
    ∃ c : ChainConfig, ∀ order, c.validate order = .ok () ∧ ofText s order = .ok c ∧
      ofFile current path order = .ok c := by
  simp only [ofText, ofFile, FileTree.readText_of_held held]
  cases parsed : parse s with
  | error source => exact .inl ⟨source, fun order => ⟨rfl, rfl⟩⟩
  | ok c =>
      by_cases valid : c.validate = .ok ()
      · refine .inr (.inr ⟨c, fun order => ?_⟩)
        have valid := (c.validate_congr order _).2 valid
        simp [valid]
      · refine .inr (.inl ⟨c, fun order => ?_⟩)
        cases checked : c.validate order with
        | error fault => simp [checked]
        | ok => exact absurd ((c.validate_congr order _).1 checked) valid

/-! ## Building -/

/-- A good config builds one filter for each of its rules, and reports how many they are. -/
theorem build_of_valid_reports {c : ChainConfig} {order : TableOrder}
    (valid : c.validate order = .ok ()) (w : World Store) :
    ∃ filters built event, c.build w order = .ok filters built ∧
      filters.length = c.rules.length ∧ built.events = w.events ++ [event] ∧
      event.level = .info ∧ event.fields = [("filters", .count c.rules.length)] := by
  rw [build, valid]
  have count := Rule.length_buildAll c.rules w.state
  refine ⟨_, _, .chainBuilt _, rfl, count, rfl, rfl, ?_⟩
  rw [← count]
  rfl

theorem exists_build_iff (c : ChainConfig) (w : World Store) (order : TableOrder) :
    (∃ filters built, c.build w order = .ok filters built) ↔ c.validate order = .ok () := by
  constructor
  · rintro ⟨filters, built, ran⟩
    cases checked : c.validate order with
    | ok => rfl
    | error fault =>
        rw [build, checked] at ran
        cases ran
  · intro valid
    obtain ⟨filters, built, -, ran, -⟩ := build_of_valid_reports valid w
    exact ⟨filters, built, ran⟩

theorem build_eq_error_iff (c : ChainConfig) (w w' : World Store) (order : TableOrder)
    (fault : ConfigFault) :
    c.build w order = .error fault w' ↔ c.validate order = .error fault ∧ w' = w := by
  rw [build]
  cases c.validate order with
  | error found =>
      rw [EStateM.Result.error.injEq, Except.error.injEq]
      exact and_congr_right fun _ => eq_comm
  | ok => simp

/-- Building tells what the check tells, and does nothing if that is a fault. -/
theorem build_agrees (c : ChainConfig) (w : World Store) (order order' : TableOrder) :
    ((∃ filters built, c.build w order = .ok filters built) ↔ c.validate order' = .ok ()) ∧
    (∀ fault w', c.build w order = .error fault w' ↔ c.validate order = .error fault ∧ w' = w) ∧
    ∀ fault fault', c.build w order = .error fault w → c.validate order' = .error fault' →
      fault = fault' ∨ fault.OtherRange fault' := by
  refine ⟨(exists_build_iff c w order).trans (c.validate_congr order order'),
    fun fault w' => build_eq_error_iff c w w' order fault, fun fault fault' failed told => ?_⟩
  exact eq_or_otherRange ((build_eq_error_iff c w w order fault).1 failed).1 told

end ChainConfig

end MeterGate
