import MeterGate.Proofs.Numerals
import MeterGate.Proofs.Parallel

set_option autoImplicit false

/-! # Gaps in a document

A document with a gap is a text with a place for a scalar, and a function from what is read there to
what the document is. Whether there is a gap can be seen from one reading of the text, with the
value at the place left open; then whatever is written there, a numeral of any length or a name, the
document is what the function says of its value (`Gap.read?_eq`). -/

namespace MeterGate.Toml

/-! ## Gaps in a text -/

/-- The reading of texts and scalars, if the scalar at a place is read as it is said. The place is
    that of the `0` before `left`. -/
def held (v : Option Value) (left : List Char) : Reader Value :=
  fun cs => if cs = '0' :: left then v.map (·, left) else simpleValue? cs

/-- Between `before` and `after` there is a place for a scalar: what the document is depends on how
    the scalar there is read, and there is no document if it cannot be read. `fill` says which
    document it is. -/
structure Gap (before after : String) (fill : Value → List (String × Value)) : Prop where
  /-- No scalar at the place goes on over what follows. -/
  ends : scalarRun after.toList = ([], after.toList)
  told : ∀ v, readWith? (held v after.toList) (before ++ "0" ++ after) = v.map fill

section

variable {left run : List Char} {c : Char} {v : Value} (bare : IsBare c)
  (read : simpleValue? (c :: run) = some (v, left))

include bare read

theorem parallel_held :
    Parallel left (c :: run) (held (some v) left) (held none left) simpleValue? where
  after {cs a rest} ends told := by
    have elsewhere : cs ≠ '0' :: left := by
      rintro rfl
      exact absurd ends.length_le (by simp)
    simp only [held, if_neg elsewhere] at told ⊢
    have steady : SteadyAt left (c :: run) _ _ _ _ := simpleValue_steady bare told
    exact ⟨steady.1.trans ends, told, told⟩
  before {front a rest} told := by
    cases front with
    | nil =>
        simp only [held, List.nil_append, if_true] at told ⊢
        cases told
        exact .inr ⟨List.suffix_rfl, .inr read⟩
    | cons d front =>
        have elsewhere : d :: front ++ '0' :: left ≠ '0' :: left := fun same => by
          have lengths := congrArg List.length same
          simp only [List.cons_append, List.length_cons, List.length_append] at lengths
          omega
        simp only [held, if_neg elsewhere] at told ⊢
        exact ((simpleValue_steady bare told).2 _ rfl).imp
          (fun ⟨back, same, read'⟩ => ⟨back, same, told, read'⟩) fun past => ⟨past, .inl told⟩

end

/-- A text without the byte order mark at its beginning, up to a place in it. -/
theorem statements?_append (before : String) :
    ∃ front, ∀ (leaf : Reader Value) {text : String} {c : Char} {run : List Char}, IsBare c →
      text.toList = before.toList ++ c :: run → statements? leaf text =
        statementsWithin? leaf (2 * (front ++ c :: run).length + 2)
          ((front ++ c :: run).length + 1) (front ++ c :: run) := by
  cases split : before.toList with
  | nil =>
      refine ⟨[], fun leaf text c run bare told => ?_⟩
      have no_mark : c ≠ '\ufeff' := bare.ne (by decide)
      simp only [statements?, told]
      split
      · next begins => exact absurd (List.cons.inj begins).1 no_mark
      · rfl
  | cons d front =>
      by_cases mark : d = '\ufeff'
      · subst mark
        refine ⟨front, fun leaf text c run bare told => ?_⟩
        simp only [statements?, told]
        rfl
      · refine ⟨d :: front, fun leaf text c run bare told => ?_⟩
        simp only [statements?, told]
        split
        · next begins => exact absurd (List.cons.inj begins).1 mark
        · rfl

/-- The statements of a text are those of the text with something else in a place, unless nobody
    looks at the place. -/
theorem statements?_of_held {before after word : String} {v : Value} (scalar : IsScalar word v)
    (ends : scalarRun after.toList = ([], after.toList)) {ss : List Statement}
    (h : statements? (held (some v) after.toList) (before ++ "0" ++ after) = some ss) :
    statements? (held none after.toList) (before ++ "0" ++ after) = some ss ∨
      statements? simpleValue? (before ++ word ++ after) = some ss := by
  obtain ⟨c, run, begins, bare⟩ := scalar.bare
  have read := scalar.simpleValue?_eq ends
  obtain ⟨front, body⟩ := statements?_append before
  have zero (leaf : Reader Value) : statements? leaf (before ++ "0" ++ after) = _ :=
    @body leaf _ _ after.toList bare_zero (by simp)
  have written : statements? simpleValue? (before ++ word ++ after) = _ :=
    @body simpleValue? _ _ (run ++ after.toList) bare (by simp [begins])
  rw [begins] at read
  rw [zero] at h ⊢
  rw [written]
  have whole {leaf : Reader Value} {bound lines : Nat} {cs rest : List Char} :
      readStatements leaf bound lines cs = some (ss, rest) ↔
        statementsWithin? leaf bound lines cs = some ss ∧ rest = [] := by
    rw [readStatements, Option.map_eq_some_iff]
    simp [eq_comm]
  have longer : (front ++ '0' :: after.toList).length ≤
      (front ++ c :: (run ++ after.toList)).length := by simp
  have three := (Parallel.statements bare (parallel_held bare read)
    (Nat.add_le_add_right (Nat.mul_le_mul_left 2 longer) 2)
    (Nat.add_le_add_right longer 1)).before (whole.2 ⟨h, rfl⟩)
  rcases three with ⟨back, empty, -⟩ | ⟨-, unseen | seen⟩
  · simp at empty
  · exact .inl (whole.1 unseen).1
  · exact .inr (whole.1 seen).1

/-- **Gaps.** What is written into a gap is what the document says there. -/
theorem Gap.read?_eq {before after word : String} {fill : Value → List (String × Value)} {v : Value}
    (gap : Gap before after fill) (scalar : IsScalar word v) :
    read? (before ++ word ++ after) = some (fill v) := by
  have told : readWith? _ _ = some (fill v) := gap.told (some v)
  have not_told : readWith? _ _ = none := gap.told none
  obtain ⟨ss, held_there, carried⟩ := Option.bind_eq_some_iff.1 told
  rcases statements?_of_held scalar gap.ends held_there with unseen | seen
  · rw [readWith?, unseen] at not_told
    cases not_told.symm.trans carried
  · rw [Toml.read?, readWith?, seen]
    exact carried

end MeterGate.Toml
