import MeterGate.Proofs.Lookahead

set_option autoImplicit false

/-! # Three readings side by side

A text is read as if what stands at a place in it were a given value, and as if nothing could be
read there; and another text, with something else at the place, is read as it is. Whatever the first
reading finds, one of the others finds as well (`Parallel`). This is so for values, arrays, inline
tables and statements, because they are put together from readers that do not look ahead
(`Parallel.statements`). -/

namespace MeterGate.Toml

variable {α β : Type}

/-! ## Putting readers together -/

/-- Nothing is read. -/
def nothing : Reader α := fun _ => none

/-- Something is found without reading. -/
def found (a : α) : Reader α := fun cs => some (a, cs)

/-- A reader, and then one that may depend on what the first has found. -/
def andThen (p : Reader α) (next : α → Reader β) : Reader β :=
  fun cs => (p cs).bind fun (a, rest) => next a rest

/-- A reader of what is left after something is skipped. -/
def skipping (p : List Char → Option (List Char)) (next : Reader α) : Reader α :=
  fun cs => (p cs).bind next

/-- A reader of what is left after blanks. -/
def afterBlanks (next : Reader α) : Reader α := fun cs => next (skipBlanks cs)

/-- One reader after a mark, and another one where the mark does not stand. -/
def ifNext (mark : Char) (p other : Reader α) : Reader α
  | [] => other []
  | c :: rest => if c = mark then p rest else other (c :: rest)

/-- A reader after a mark that has to stand there. -/
def expect (mark : Char) (p : Reader α) : Reader α := ifNext mark p nothing

/-- A reader at the end of the text, and another one elsewhere. -/
def atEnd (a : α) (other : Reader α) : Reader α
  | [] => some (a, [])
  | c :: rest => other (c :: rest)

theorem ifNext_mark (mark : Char) (p other : Reader α) (rest : List Char) :
    ifNext mark p other (mark :: rest) = p rest := if_pos rfl

theorem ifNext_other {mark : Char} {cs : List Char} (h : ∀ rest, cs = mark :: rest → False)
    (p other : Reader α) : ifNext mark p other cs = other cs := by
  cases cs with
  | nil => rfl
  | cons c rest =>
      refine if_neg fun same => ?_
      subst same
      exact h rest rfl

theorem expect_mark (mark : Char) (p : Reader α) (rest : List Char) :
    expect mark p (mark :: rest) = p rest := ifNext_mark ..

theorem expect_other {mark : Char} {cs : List Char} (h : ∀ rest, cs = mark :: rest → False)
    (p : Reader α) : expect mark p cs = none := ifNext_other h ..

/-! ## What readers are put together from -/

theorem keyPathWithin?_succ (most : Nat) :
    keyPathWithin? (most + 1) = andThen key? fun key => afterBlanks <|
      ifNext '.' (afterBlanks <| andThen (keyPathWithin? most) fun path => found (key :: path))
        (found [key]) := by
  funext cs
  simp only [keyPathWithin?]
  refine Option.bind_congr fun ⟨key, cs⟩ _ => ?_
  simp only [afterBlanks]
  split
  · next after_dot => rw [after_dot, ifNext_mark]; rfl
  · next no_dot => rw [ifNext_other no_dot]; rfl

theorem items?_succ (leaf : Reader Value) (bound depth : Nat) :
    items? leaf (bound + 1) depth =
      skipping (skipFiller false) (ifNext ']' (found []) <|
        andThen (value? leaf bound depth) fun v => skipping (skipFiller false) <|
          ifNext ',' (andThen (items? leaf bound depth) fun vs => found (v :: vs)) <|
            expect ']' (found [v])) := by
  funext cs
  simp only [items?]
  refine Option.bind_congr fun cs _ => ?_
  split
  · rw [ifNext_mark]; rfl
  · next no_end =>
    rw [ifNext_other no_end]
    refine Option.bind_congr fun ⟨v, cs⟩ _ => Option.bind_congr fun cs _ => ?_
    split
    · rw [ifNext_mark]; rfl
    · rfl
    · next no_comma no_end => rw [ifNext_other no_comma, expect_other no_end]

theorem assignments?_succ (leaf : Reader Value) (bound depth : Nat) :
    assignments? leaf (bound + 1) depth =
      skipping (skipFiller false) (ifNext '\x7d' (found []) <|
        andThen keyPath? fun path => skipping (skipFiller false) <| expect '=' <|
          skipping (skipFiller false) <|
            andThen (value? leaf bound depth) fun v => skipping (skipFiller false) <|
              ifNext ',' (andThen (assignments? leaf bound depth) fun more =>
                found ((path, v) :: more)) <|
              expect '\x7d' (found [(path, v)])) := by
  funext cs
  simp only [assignments?]
  refine Option.bind_congr fun cs _ => ?_
  split
  · rw [ifNext_mark]; rfl
  · next no_end =>
    rw [ifNext_other no_end]
    refine Option.bind_congr fun ⟨path, cs⟩ _ => Option.bind_congr fun cs _ => ?_
    split
    · rw [expect_mark]
      refine Option.bind_congr fun cs _ => Option.bind_congr fun ⟨v, cs⟩ _ =>
        Option.bind_congr fun cs _ => ?_
      split
      · rw [ifNext_mark]; rfl
      · rfl
      · next no_comma no_end => rw [ifNext_other no_comma, expect_other no_end]
    · next no_sign => rw [expect_other no_sign]

theorem value?_succ_succ (leaf : Reader Value) (bound depth : Nat) :
    value? leaf (bound + 1) (depth + 1) =
      ifNext '[' (andThen (items? leaf bound depth) fun vs => found (Value.array vs))
        (ifNext '\x7b' (andThen (assignments? leaf bound depth) fun assignments =>
          (inlineEntries? assignments).elim nothing fun entries => found (Value.table entries))
          leaf) := by
  funext cs
  rcases cs with _ | ⟨c, rest⟩
  · rfl
  · by_cases opens : c = '['
    · subst opens
      rfl
    · rw [ifNext, if_neg opens]
      by_cases opens_table : c = '\x7b'
      · subst opens_table
        rw [ifNext_mark, value?]
        refine Option.bind_congr fun ⟨assignments, rest⟩ _ => ?_
        simp only
        cases inlineEntries? assignments <;> rfl
      · rw [ifNext, if_neg opens_table, value?.eq_6] <;> simp [opens, opens_table]

theorem value?_succ_zero (leaf : Reader Value) (bound : Nat) :
    value? leaf (bound + 1) 0 = ifNext '[' nothing (ifNext '\x7b' nothing leaf) := by
  funext cs
  rcases cs with _ | ⟨c, rest⟩
  · rfl
  · by_cases opens : c = '['
    · subst opens
      rfl
    · rw [ifNext, if_neg opens]
      by_cases opens_table : c = '\x7b'
      · subst opens_table
        rfl
      · rw [ifNext, if_neg opens_table, value?.eq_6] <;> simp [opens, opens_table]

/-- What is left after the end of a line is left after blanks, a comment and the line end itself. -/
theorem skipping_endLine (next : Reader α) :
    skipping endLine next =
      afterBlanks (andThen (ifNext '#' (skipping skipComment <| found ()) (found ())) fun _ =>
        andThen (atEnd () <| ifNext '\n' (found ()) <| expect '\r' <| expect '\n' <| found ())
          fun _ => next) := by
  obtain ⟨lineEnd?, endLine_eq, line_end⟩ : ∃ lineEnd? : List Char → Option (List Char),
      (∀ cs, endLine cs = (if (skipBlanks cs).head? = some '#' then skipComment (skipBlanks cs)
        else some (skipBlanks cs)) >>= lineEnd?) ∧
      ∀ cs, (lineEnd? cs).bind next =
        andThen (atEnd () <| ifNext '\n' (found ()) <| expect '\r' <| expect '\n' <| found ())
          (fun _ => next) cs := by
    refine ⟨_, fun cs => (apply_ite (· >>= _) _ _ _).symm, fun cs => ?_⟩
    dsimp only
    split
    · rfl
    · rfl
    · rfl
    · next no_end no_feed no_return =>
      rcases cs with _ | ⟨c, cs⟩
      · exact absurd rfl no_end
      · rw [andThen, atEnd, ifNext_other no_feed]
        by_cases ret : c = '\r'
        · subst ret
          rw [expect_mark, expect_other]
          · rfl
          · rintro rest rfl
            exact no_return rest rfl
        · rw [expect_other fun rest same => ret (List.cons.inj same).1]
          rfl
  funext cs
  simp only [skipping, endLine_eq, afterBlanks]
  split
  · next comment =>
    obtain ⟨rest, split⟩ := List.head?_eq_some_iff.1 comment
    rw [andThen, split, ifNext_mark]
    -- the mark of a comment is passed over as the characters after it are
    have marked : skipComment ('#' :: rest) = skipComment rest := rfl
    rw [marked, skipping]
    cases skipComment rest with
    | none => rfl
    | some cs => exact line_end cs
  · next no_comment =>
    rw [andThen, ifNext_other]
    · exact line_end _
    · rintro rest split
      simp [split] at no_comment

/-- The statements of a text, as a reader of all of it. -/
def readStatements (leaf : Reader Value) (bound lines : Nat) : Reader (List Statement) :=
  fun cs => (statementsWithin? leaf bound lines cs).map (·, [])

theorem readStatements_succ (leaf : Reader Value) (bound lines : Nat) :
    readStatements leaf bound (lines + 1) =
      skipping (skipFiller false) (atEnd [] <| andThen (statement? leaf bound) fun s =>
        andThen (readStatements leaf bound lines) fun ss => found (s :: ss)) := by
  funext cs
  simp only [readStatements, statementsWithin?, skipping]
  cases skipFiller false cs with
  | none => rfl
  | some cs =>
      cases cs with
      | nil => rfl
      | cons c cs =>
          simp only [Option.bind_eq_bind, Option.bind_some, atEnd, andThen]
          cases statement? leaf bound (c :: cs) with
          | none => rfl
          | some read =>
              simp only [Option.bind_some, readStatements]
              cases statementsWithin? leaf bound lines read.2 <;> rfl

theorem statement?_eq (leaf : Reader Value) (bound : Nat) :
    statement? leaf bound =
      ifNext '['
        (ifNext '['
          (afterBlanks <| andThen keyPath? fun path => expect ']' <| expect ']' <|
            skipping endLine <| found (Statement.item path))
          (afterBlanks <| andThen keyPath? fun path => expect ']' <|
            skipping endLine <| found (Statement.table path)))
        (andThen keyPath? fun path => expect '=' <| afterBlanks <|
          andThen (value? leaf bound maxDepth) fun v => skipping endLine <|
            found (Statement.assignment path v)) := by
  funext cs
  unfold statement?
  split
  · rw [ifNext_mark, ifNext_mark]
    refine Option.bind_congr fun ⟨path, cs⟩ _ => ?_
    simp only
    split
    · rw [expect_mark, expect_mark]; rfl
    · next no_ends =>
      rcases cs with _ | ⟨c, cs⟩
      · rfl
      · by_cases closes : c = ']'
        · subst closes
          rw [expect_mark, expect_other]
          rintro rest rfl
          exact no_ends rest rfl
        · rw [expect_other fun rest same => closes (List.cons.inj same).1]
  · next no_item =>
    rw [ifNext_mark, ifNext_other no_item]
    refine Option.bind_congr fun ⟨path, cs⟩ _ => ?_
    simp only
    split
    · rw [expect_mark]; rfl
    · next no_end => rw [expect_other no_end]
  · next no_item no_table =>
    rw [ifNext_other no_table]
    refine Option.bind_congr fun ⟨path, cs⟩ _ => ?_
    simp only
    split
    · rw [expect_mark]; rfl
    · next no_sign => rw [expect_other no_sign]

/-! ## Three readings -/

section

variable (left written : List Char)

/-- One reader finds what is said to stand at a place of a text, and another one finds nothing
    there; a third one reads the text with something else written there. What the first finds is
    then found by one of the others: by all three, unless the place has been passed, and by the
    second if nobody has looked at the place. -/
structure Parallel (p q r : Reader α) : Prop where
  after : ∀ {cs a rest}, cs <:+ left → p cs = some (a, rest) →
    rest <:+ left ∧ q cs = some (a, rest) ∧ r cs = some (a, rest)
  before : ∀ {front a rest}, p (front ++ '0' :: left) = some (a, rest) →
    (∃ back, rest = back ++ '0' :: left ∧ q (front ++ '0' :: left) = some (a, rest) ∧
      r (front ++ written) = some (a, back ++ written)) ∨
    rest <:+ left ∧
      (q (front ++ '0' :: left) = some (a, rest) ∨ r (front ++ written) = some (a, rest))

end

namespace Parallel

section

variable {left written : List Char}

theorem of_fail {p : Reader α} (fail : ∀ cs, p cs = none) (q r : Reader α) :
    Parallel left written p q r :=
  ⟨fun _ read => by simp [fail] at read, fun read => by simp [fail] at read⟩

theorem of_steady {p : Reader α}
    (steady : ∀ {cs a rest}, p cs = some (a, rest) → SteadyAt left written p cs a rest) :
    Parallel left written p p p where
  after ends read := ⟨(steady read).1.trans ends, read, read⟩
  before read := ((steady read).2 _ rfl).imp
    (fun ⟨back, told, read'⟩ => ⟨back, told, read, read'⟩) fun past => ⟨past, .inl read⟩

theorem pure (a : α) : Parallel left written (found a) (found a) (found a) :=
  of_steady fun read => by
    cases read
    exact steadyAt_stop [] fun front inner => rfl

theorem andThen {p q r : Reader α} {p' q' r' : α → Reader β} (first : Parallel left written p q r)
    (second : ∀ a, Parallel left written (p' a) (q' a) (r' a)) :
    Parallel left written (andThen p p') (andThen q q') (andThen r r') where
  after ends read := by
    obtain ⟨⟨a, mid⟩, read_first, read_second⟩ := Option.bind_eq_some_iff.1 read
    obtain ⟨ends, none_there, written_there⟩ := first.after ends read_first
    obtain ⟨ends, none_then, written_then⟩ := (second a).after ends read_second
    refine ⟨ends, ?_, ?_⟩
    · rw [Toml.andThen, none_there]
      exact none_then
    · rw [Toml.andThen, written_there]
      exact written_then
  before read := by
    obtain ⟨⟨a, mid⟩, read_first, read_second⟩ := Option.bind_eq_some_iff.1 read
    simp only [Toml.andThen]
    rcases first.before read_first with ⟨back, rfl, none_there, written_there⟩ | ⟨past, one⟩
    · rw [none_there, written_there]
      exact (second a).before read_second
    · obtain ⟨ends, none_then, written_then⟩ := (second a).after past read_second
      refine .inr ⟨ends, one.imp (fun none_there => ?_) fun written_there => ?_⟩
      · rw [none_there]
        exact none_then
      · rw [written_there]
        exact written_then

theorem skipping {f : List Char → Option (List Char)}
    (steady : ∀ {cs rest}, f cs = some rest → SteadyAt left written (skip f) cs () rest)
    {p q r : Reader α} (next : Parallel left written p q r) :
    Parallel left written (skipping f p) (skipping f q) (skipping f r) := by
  have skip_then (p : Reader α) : Toml.skipping f p = Toml.andThen (skip f) fun _ => p := by
    funext cs
    simp only [Toml.skipping, Toml.andThen, skip]
    cases f cs <;> rfl
  have skipped : Parallel left written (skip f) (skip f) (skip f) := of_steady fun read => by
    obtain ⟨rest, skipped, told⟩ := Option.map_eq_some_iff.1 read
    cases told
    exact steady skipped
  simp only [skip_then]
  exact skipped.andThen fun _ => next

end

section

variable {left run : List Char} {c : Char} (bare : IsBare c)

include bare

theorem ifNext {mark : Char} (none_bare : ¬ IsBare mark) {p q r p' q' r' : Reader α}
    (there : Parallel left (c :: run) p q r) (other : Parallel left (c :: run) p' q' r') :
    Parallel left (c :: run) (ifNext mark p p') (ifNext mark q q') (ifNext mark r r') where
  after {cs a rest} ends read := by
    cases cs with
    | nil => exact other.after ends read
    | cons d cs =>
        by_cases same : d = mark
        · subst same
          rw [ifNext_mark] at read
          simp only [ifNext_mark]
          exact there.after ((List.suffix_cons ..).trans ends) read
        · rw [Toml.ifNext, if_neg same] at read
          simp only [Toml.ifNext, if_neg same]
          exact other.after ends read
  before {front a rest} read := by
    cases front with
    | nil =>
        have zero_other := bare_zero.ne none_bare
        have other_there := bare.ne none_bare
        simp only [List.nil_append, Toml.ifNext, if_neg zero_other, if_neg other_there] at read ⊢
        exact @other.before [] _ _ read
    | cons d front =>
        by_cases same : d = mark
        · subst same
          simp only [List.cons_append, ifNext_mark] at read ⊢
          exact there.before read
        · simp only [List.cons_append, Toml.ifNext, if_neg same] at read ⊢
          exact @other.before (d :: front) _ _ read

theorem expect {mark : Char} (none_bare : ¬ IsBare mark) {p q r : Reader α}
    (there : Parallel left (c :: run) p q r) :
    Parallel left (c :: run) (expect mark p) (expect mark q) (expect mark r) :=
  ifNext bare none_bare there (of_fail (fun _ => rfl) _ _)

theorem afterFiller {p q r : Reader α} (next : Parallel left (c :: run) p q r) :
    Parallel left (c :: run) (Toml.skipping (skipFiller false) p)
      (Toml.skipping (skipFiller false) q) (Toml.skipping (skipFiller false) r) :=
  skipping (skipFiller_steady bare) next

theorem afterBlanks {p q r : Reader α} (next : Parallel left (c :: run) p q r) :
    Parallel left (c :: run) (afterBlanks p) (afterBlanks q) (afterBlanks r) := by
  have steady {cs rest : List Char} (skipped : some (skipBlanks cs) = some rest) :
      SteadyAt left (c :: run) (skip fun cs => some (skipBlanks cs)) cs () rest := by
    cases skipped
    exact skipBlanks_steady bare cs
  exact skipping steady next

omit bare in
theorem atEnd (a : α) {p q r : Reader α} (other : Parallel left (c :: run) p q r) :
    Parallel left (c :: run) (atEnd a p) (atEnd a q) (atEnd a r) where
  after {cs b rest} ends read := by
    cases cs with
    | nil =>
        cases read
        exact ⟨ends, rfl, rfl⟩
    | cons d cs => exact other.after ends read
  before {front b rest} read := by
    cases front with
    | nil => exact @other.before [] _ _ read
    | cons d front => exact @other.before (d :: front) _ _ read

theorem afterLine {p q r : Reader α} (next : Parallel left (c :: run) p q r) :
    Parallel left (c :: run) (Toml.skipping endLine p) (Toml.skipping endLine q)
      (Toml.skipping endLine r) := by
  simp only [skipping_endLine]
  have comment : Parallel left (c :: run) _ _ _ := skipping (skipComment_steady bare) (pure ())
  exact afterBlanks bare <| (ifNext bare (by decide) comment (pure _)).andThen fun _ =>
    (atEnd _ <| ifNext bare (by decide) (pure _) <| expect bare (by decide) <|
      expect bare (by decide) (pure _)).andThen fun _ => next

theorem keyPath : Parallel left (c :: run) keyPath? keyPath? keyPath? := by
  have within (most : Nat) : Parallel left (c :: run) (keyPathWithin? most) (keyPathWithin? most)
      (keyPathWithin? most) := by
    induction most with
    | zero => exact of_fail (fun _ => rfl) _ _
    | succ most ih =>
        rw [keyPathWithin?_succ]
        exact (of_steady key_steady).andThen fun key => afterBlanks bare <|
          ifNext bare (by decide)
            (afterBlanks bare <| ih.andThen fun path => pure (key :: path)) (pure [key])
  exact within maxKeys

section

variable {p q r : Reader Value} (leaf : Parallel left (c :: run) p q r)

include leaf

theorem value_items_assignments {bound bound' : Nat} (le : bound ≤ bound') (depth : Nat) :
    Parallel left (c :: run) (value? p bound depth) (value? q bound depth) (value? r bound' depth) ∧
    Parallel left (c :: run) (items? p bound depth) (items? q bound depth) (items? r bound' depth) ∧
    Parallel left (c :: run) (assignments? p bound depth) (assignments? q bound depth)
      (assignments? r bound' depth) := by
  induction bound generalizing bound' depth with
  | zero =>
      refine ⟨of_fail (fun _ => ?_) _ _, of_fail (fun _ => ?_) _ _, of_fail (fun _ => ?_) _ _⟩
      · rw [value?]
      · rw [items?]
      · rw [assignments?]
  | succ bound ih =>
      obtain ⟨bound', rfl⟩ := Nat.exists_eq_add_one_of_ne_zero (Nat.ne_zero_of_lt le)
      replace ih (depth : Nat) := ih (Nat.le_of_succ_le_succ le) depth
      refine ⟨?_, ?_, ?_⟩
      · cases depth with
        | zero =>
            simp only [value?_succ_zero]
            exact ifNext bare (by decide) (of_fail (fun _ => rfl) _ _) <|
              ifNext bare (by decide) (of_fail (fun _ => rfl) _ _) leaf
        | succ depth =>
            obtain ⟨-, items, assignments⟩ := ih depth
            simp only [value?_succ_succ]
            refine ifNext bare (by decide) (items.andThen fun vs => pure _) <|
              ifNext bare (by decide) (assignments.andThen fun assignments => ?_) leaf
            cases inlineEntries? assignments with
            | none => exact of_fail (fun _ => rfl) _ _
            | some entries => exact pure _
      · obtain ⟨value, items, -⟩ := ih depth
        simp only [items?_succ]
        exact afterFiller bare <| ifNext bare (by decide) (pure _) <|
          value.andThen fun v => afterFiller bare <|
            ifNext bare (by decide) (items.andThen fun vs => pure _) <|
              expect bare (by decide) (pure _)
      · obtain ⟨value, -, assignments⟩ := ih depth
        simp only [assignments?_succ]
        exact afterFiller bare <| ifNext bare (by decide) (pure _) <|
          (keyPath bare).andThen fun path => afterFiller bare <|
            expect bare (by decide) <| afterFiller bare <|
              value.andThen fun v => afterFiller bare <|
                ifNext bare (by decide) (assignments.andThen fun more => pure _) <|
                  expect bare (by decide) (pure _)

theorem statement {bound bound' : Nat} (le : bound ≤ bound') :
    Parallel left (c :: run) (statement? p bound) (statement? q bound) (statement? r bound') := by
  have value := (value_items_assignments bare leaf le maxDepth).1
  simp only [statement?_eq]
  refine ifNext bare (by decide) (ifNext bare (by decide) ?_ ?_) ?_
  · exact afterBlanks bare <| (keyPath bare).andThen fun path => expect bare (by decide) <|
      expect bare (by decide) <| afterLine bare (pure _)
  · exact afterBlanks bare <| (keyPath bare).andThen fun path => expect bare (by decide) <|
      afterLine bare (pure _)
  · exact (keyPath bare).andThen fun path => expect bare (by decide) <| afterBlanks bare <|
      value.andThen fun v => afterLine bare (pure _)

theorem statements {bound bound' lines lines' : Nat} (le : bound ≤ bound')
    (lines_le : lines ≤ lines') :
    Parallel left (c :: run) (readStatements p bound lines) (readStatements q bound lines)
      (readStatements r bound' lines') := by
  induction lines generalizing lines' with
  | zero => exact of_fail (fun _ => rfl) _ _
  | succ lines ih =>
      obtain ⟨lines', rfl⟩ := Nat.exists_eq_add_one_of_ne_zero (Nat.ne_zero_of_lt lines_le)
      simp only [readStatements_succ]
      exact afterFiller bare <| atEnd _ <| (statement bare leaf le).andThen fun s =>
        (ih (Nat.le_of_succ_le_succ lines_le)).andThen fun ss => pure _

end

end

end Parallel

end MeterGate.Toml
