import MeterGate.Toml.Document
import Mathlib.Data.List.Infix

set_option autoImplicit false

/-! # Reading up to a place

If a `0` stands at some place of a text, then what reads from before it has either not come to the
place, and would read the same if something else were written there, or it has gone past it. So it
is for everything that reads a text without looking at the values in it: none of the readers looks
further ahead than to the next character that can begin a scalar (`SteadyAt`). -/

namespace MeterGate.Toml

/-! ## Characters that begin a scalar -/

/-- A character that can begin a numeral or a word. -/
def IsBare (c : Char) : Prop :=
  isScalarEnd c = false ∧ isBlank c = false ∧ c ∉ ['.', '"', '\'', '\\', '\ufeff']

instance (c : Char) : Decidable (IsBare c) := by unfold IsBare; infer_instance

theorem bare_zero : IsBare '0' := by decide

theorem IsBare.ne {c d : Char} (bare : IsBare c) (mark : ¬ IsBare d) : c ≠ d :=
  fun same => mark (same ▸ bare)

/-- What begins with marks begins with them before the place of a scalar. -/
theorem eq_append_of_marks {c : Char} (bare : IsBare c) (marks : List Char)
    (none_bare : marks.any (IsBare ·) = false) {front run rest : List Char}
    (h : front ++ c :: run = marks ++ rest) :
    ∃ front', front = marks ++ front' ∧ rest = front' ++ c :: run := by
  induction marks generalizing front with
  | nil => exact ⟨front, rfl, h.symm⟩
  | cons d marks ih =>
      rw [List.any_cons, Bool.or_eq_false_iff, decide_eq_false_iff_not] at none_bare
      obtain ⟨mark, others⟩ := none_bare
      cases front with
      | nil => exact absurd (List.cons.inj h).1 (bare.ne mark)
      | cons e front =>
          obtain ⟨rfl, later⟩ := List.cons.inj h
          obtain ⟨front', rfl, told⟩ := ih others later
          exact ⟨front', rfl, told⟩

section

variable {left run cs front : List Char} {c : Char} (bare : IsBare c) (marks : List Char)
  (none_bare : marks.any (IsBare ·) = false)

include bare none_bare

/-- What does not begin with marks does not do so either if the `0` at a place is replaced. -/
theorem not_begins_of_append (none_here : ∀ rest, cs = marks ++ rest → False)
    (inner : cs = front ++ '0' :: left) :
    ∀ rest, front ++ c :: run = marks ++ rest → False := by
  intro rest begins
  obtain ⟨front, rfl, -⟩ := eq_append_of_marks bare marks none_bare begins
  exact none_here _ (inner.trans (List.append_assoc ..))

theorem not_begins_of_append_if {given : Prop}
    (none_here : ∀ rest, given → cs = marks ++ rest → False) (inner : cs = front ++ '0' :: left) :
    ∀ rest, given → front ++ c :: run = marks ++ rest → False := fun rest holds =>
  not_begins_of_append bare marks none_bare (fun rest => none_here rest holds) inner rest

end

/-! ## Readers that do not look ahead -/

section

variable {α β : Type} (left written : List Char)

/-- A reader leaves an end of a text, and if there is a `0` at some place, then it has either found
    what it finds when something else is written there, or gone past the place. -/
def SteadyAt (p : Reader α) (cs : List Char) (a : α) (rest : List Char) : Prop :=
  rest <:+ cs ∧ ∀ front, cs = front ++ '0' :: left →
    (∃ back, rest = back ++ '0' :: left ∧ p (front ++ written) = some (a, back ++ written)) ∨
      rest <:+ left

variable {left written} {p : Reader α} {q : Reader β} {cs tail rest : List Char} {a : α} {b : β}

/-- After some characters, a reader may go on as another one does. -/
theorem SteadyAt.append (later : SteadyAt left written p tail a rest) (used : List Char)
    (go : ∀ front back, tail = front ++ '0' :: left → p (front ++ written) = some (a, back) →
      q (used ++ (front ++ written)) = some (b, back)) :
    SteadyAt left written q (used ++ tail) b rest := by
  refine ⟨later.1.trans (List.suffix_append ..), fun front split => ?_⟩
  have gone_on {front' : List Char} (inner : tail = front' ++ '0' :: left) :
      (∃ back, rest = back ++ '0' :: left ∧
        q (used ++ (front' ++ written)) = some (b, back ++ written)) ∨ rest <:+ left :=
    (later.2 front' inner).imp_left fun ⟨back, told, read⟩ => ⟨back, told, go front' _ inner read⟩
  rcases List.append_eq_append_iff.1 split with ⟨front', rfl, inner⟩ | ⟨beyond, used_eq, inner⟩
  · rw [List.append_assoc]
    exact gone_on inner
  · cases beyond with
    | nil =>
        rw [List.append_nil] at used_eq
        subst used_eq
        exact @gone_on [] inner.symm
    | cons d beyond =>
        obtain ⟨-, rfl⟩ := List.cons.inj inner
        exact .inr (later.1.trans (List.suffix_append ..))

theorem steadyAt_stop (used : List Char)
    (stop : ∀ front, tail = front ++ '0' :: left →
      q (used ++ (front ++ written)) = some (b, front ++ written)) :
    SteadyAt left written q (used ++ tail) b tail := by
  have here : SteadyAt left written (fun cs => some (b, cs)) tail b tail :=
    ⟨List.suffix_rfl, fun front inner => .inl ⟨front, inner, rfl⟩⟩
  refine here.append used fun front back inner read => ?_
  cases read
  exact stop front inner

theorem steadyAt_nil (q : Reader β) (b : β) : SteadyAt left written q [] b [] :=
  ⟨List.suffix_rfl, fun front split => by simp at split⟩

theorem SteadyAt.map (h : SteadyAt left written p cs a rest)
    (go : ∀ front back, cs = front ++ '0' :: left → p (front ++ written) = some (a, back) →
      q (front ++ written) = some (b, back)) :
    SteadyAt left written q cs b rest :=
  ⟨h.1, fun front split => (h.2 front split).imp_left fun ⟨back, told, read⟩ =>
    ⟨back, told, go front _ split read⟩⟩

/-- A reader that takes characters into what it finds goes on in the same way. -/
theorem SteadyAt.consed {p : Reader (List Char)} {content : List Char}
    (later : SteadyAt left written p cs content rest) (used : List Char)
    (go : ∀ front, cs = front ++ '0' :: left → p (used ++ (front ++ written)) =
      (p (front ++ written)).map fun (content, left) => (used ++ content, left)) :
    SteadyAt left written p (used ++ cs) (used ++ content) rest := by
  refine later.append used fun front back inner read => ?_
  rw [go front inner, read]
  rfl

end

/-! ## Between the parts -/

/-- What skips characters, as a reader. -/
def skip (p : List Char → Option (List Char)) : Reader Unit := fun cs => (p cs).map ((), ·)

section

variable {left run : List Char} {c : Char} (bare : IsBare c)

include bare

theorem skipBlanks_steady (cs : List Char) :
    SteadyAt left (c :: run) (skip fun cs => some (skipBlanks cs)) cs () (skipBlanks cs) := by
  induction cs with
  | nil => exact steadyAt_nil _ _
  | cons d cs ih =>
      by_cases blank : isBlank d
      · rw [skipBlanks, List.dropWhile_cons_of_pos blank]
        refine ih.append [d] fun front back inner read => ?_
        rw [← read]
        simp [skip, skipBlanks, blank]
      · rw [skipBlanks, List.dropWhile_cons_of_neg blank]
        refine steadyAt_stop [] fun front inner => ?_
        cases front with
        | nil => simp [skip, bare.2.1]
        | cons e front =>
            obtain ⟨rfl, rfl⟩ := List.cons.inj inner
            simp [skip, blank]

theorem skipFiller_bare (run : List Char) : skipFiller false (c :: run) = some (c :: run) := by
  rw [skipFiller.eq_4 _ _ _ (bare.ne (by decide)) fun _ ret => absurd ret (bare.ne (by decide))]
  simp [bare.2.1, bare.ne (d := '#') (by decide)]

theorem skipFiller_steady {inComment : Bool} {cs rest : List Char}
    (h : skipFiller inComment cs = some rest) :
    SteadyAt left (c :: run) (skip (skipFiller inComment)) cs () rest := by
  fun_induction skipFiller inComment cs with
  | case1 =>
      cases h
      exact steadyAt_nil _ _
  | case2 inComment cs ih => exact (ih h).append ['\n'] fun front back inner read => read
  | case3 inComment cs ih => exact (ih h).append ['\r', '\n'] fun front back inner read => read
  | case4 => cases h
  | case5 d cs no_feed no_return no_control ih =>
      refine (ih h).append [d] fun front back inner read => ?_
      rw [← read, List.singleton_append, skip, skip, skipFiller.eq_4 _ _ _ no_feed
        (not_begins_of_append_if bare ['\n'] (by decide) no_return inner)]
      simp [no_control]
  | case6 inComment d cs no_feed no_return plain blank ih =>
      refine (ih h).append [d] fun front back inner read => ?_
      rw [← read, List.singleton_append, skip, skip, skipFiller.eq_4 _ _ _ no_feed
        (not_begins_of_append_if bare ['\n'] (by decide) no_return inner)]
      simp [plain, blank]
  | case7 inComment cs plain no_feed no_return no_blank ih =>
      refine (ih h).append ['#'] fun front back inner read => ?_
      rw [← read, List.singleton_append, skip, skip, skipFiller.eq_4 _ _ _ no_feed
        (not_begins_of_append_if bare ['\n'] (by decide) no_return inner)]
      simp [plain, no_blank]
  | case8 inComment d cs no_feed no_return plain no_blank no_mark =>
      cases h
      obtain rfl : inComment = false := by simpa using plain
      refine steadyAt_stop [] fun front inner => ?_
      cases front with
      | nil => simp [skip, skipFiller_bare bare]
      | cons e front =>
          obtain ⟨rfl, rfl⟩ := List.cons.inj inner
          rw [List.nil_append, List.cons_append, skip, skipFiller.eq_4 _ _ _ no_feed
            (not_begins_of_append_if bare ['\n'] (by decide) no_return rfl)]
          simp [no_blank, no_mark]

theorem skipComment_steady {cs rest : List Char} (h : skipComment cs = some rest) :
    SteadyAt left (c :: run) (skip skipComment) cs () rest := by
  fun_induction skipComment cs with
  | case1 =>
      cases h
      exact steadyAt_nil _ _
  | case2 cs =>
      cases h
      refine steadyAt_stop [] fun front inner => ?_
      obtain ⟨front, rfl, -⟩ := eq_append_of_marks bare_zero ['\n'] (by decide) inner.symm
      rfl
  | case3 cs =>
      cases h
      refine steadyAt_stop [] fun front inner => ?_
      obtain ⟨front, rfl, -⟩ :=
        eq_append_of_marks bare_zero ['\r', '\n'] (by decide) inner.symm
      rfl
  | case4 => cases h
  | case5 d cs no_feed no_return no_control ih =>
      refine (ih h).append [d] fun front back inner read => ?_
      rw [← read, List.singleton_append, skip, skip, skipComment.eq_4 _ _ no_feed
        (not_begins_of_append_if bare ['\n'] (by decide) no_return inner)]
      simp [no_control]

/-! ## Quoted texts -/

omit bare in
/-- A backslash before the place of the `0` escapes what stands there. -/
theorem no_escape_of_append {d : Char} {cs front : List Char}
    (none_here : ∀ e rest, d = '\\' → cs = e :: rest → False)
    (inner : cs = front ++ '0' :: left) :
    ∀ e rest, d = '\\' → front ++ c :: run = e :: rest → False := by
  rintro e rest backslash -
  cases front with
  | nil => exact none_here '0' left backslash inner
  | cons f front => exact none_here f _ backslash inner

omit bare in
theorem untilQuote_steady {cs content rest : List Char}
    (h : untilQuote cs = some (content, rest)) :
    SteadyAt left (c :: run) untilQuote cs content rest := by
  fun_induction untilQuote cs generalizing content with
  | case1 | case3 => cases h
  | case2 =>
      cases h
      exact steadyAt_stop ['"'] fun front inner => rfl
  | case4 d cs ih =>
      obtain ⟨⟨content, rest⟩, read, told⟩ := Option.map_eq_some_iff.1 h
      cases told
      exact (ih read).consed ['\\', d] fun front inner => rfl
  | case5 d cs no_quote no_feed no_escape ih =>
      obtain ⟨⟨content, rest⟩, read, told⟩ := Option.map_eq_some_iff.1 h
      cases told
      refine (ih read).consed [d] fun front inner => ?_
      rw [List.singleton_append, untilQuote.eq_5 _ _ no_quote no_feed
        (no_escape_of_append no_escape inner)]
      rfl

omit bare in
theorem untilApostrophe_steady {cs content rest : List Char}
    (h : untilApostrophe cs = some (content, rest)) :
    SteadyAt left (c :: run) untilApostrophe cs content rest := by
  fun_induction untilApostrophe cs generalizing content with
  | case1 | case3 => cases h
  | case2 =>
      cases h
      exact steadyAt_stop ['\''] fun front inner => rfl
  | case4 d cs no_quote no_feed ih =>
      obtain ⟨⟨content, rest⟩, read, told⟩ := Option.map_eq_some_iff.1 h
      cases told
      refine (ih read).consed [d] fun front inner => ?_
      rw [List.singleton_append, untilApostrophe.eq_4 _ _ no_quote no_feed]
      rfl

/-- What is written in the place of the `0` adds no quotes to those before it. -/
theorem moreQuotes_steady {quote : Char} (mark : ¬ IsBare quote) (cs : List Char) :
    SteadyAt left (c :: run) (fun cs => some (moreQuotes quote cs)) cs (moreQuotes quote cs).1
      (moreQuotes quote cs).2 := by
  have stop {d : Char} (other : d ≠ quote) (rest : List Char) :
      moreQuotes quote (d :: rest) = ([], d :: rest) ∧
        moreQuotes quote (quote :: d :: rest) = ([quote], d :: rest) := by
    simp [moreQuotes, other]
  have both (rest : List Char) :
      moreQuotes quote (quote :: quote :: rest) = ([quote, quote], rest) := by simp [moreQuotes]
  -- the place is no further quote, and after a character that is none nothing is looked at
  have held {d : Char} {rest front : List Char} (other : d ≠ quote)
      (inner : d :: rest = front ++ '0' :: left) :
      ∃ e back, e ≠ quote ∧ front ++ c :: run = e :: back := by
    cases front with
    | nil => exact ⟨c, run, bare.ne mark, rfl⟩
    | cons e front =>
        obtain ⟨rfl, rfl⟩ := List.cons.inj inner
        exact ⟨d, _, other, rfl⟩
  match cs with
  | [] => exact steadyAt_nil _ _
  | d :: rest =>
      by_cases same : d = quote
      · subst same
        match rest with
        | [] =>
            have alone : moreQuotes d [d] = ([d], []) := by simp [moreQuotes]
            rw [alone]
            exact steadyAt_stop [d] fun front inner => by simp at inner
        | e :: rest =>
            by_cases same : e = d
            · subst same
              rw [both]
              exact steadyAt_stop [e, e] fun front inner => by simp [both]
            · rw [(stop same rest).2]
              refine steadyAt_stop [d] fun front inner => ?_
              obtain ⟨f, back, other, split⟩ := held same inner
              rw [split, List.singleton_append, (stop other back).2]
      · rw [(stop same rest).1]
        refine steadyAt_stop [] fun front inner => ?_
        obtain ⟨f, back, other, split⟩ := held same inner
        rw [split, List.nil_append, (stop other back).1]

theorem untilThreeQuotes_steady {cs content rest : List Char}
    (h : untilThreeQuotes cs = some (content, rest)) :
    SteadyAt left (c :: run) untilThreeQuotes cs content rest := by
  fun_induction untilThreeQuotes cs generalizing content with
  | case1 => cases h
  | case2 cs =>
      obtain ⟨rfl, rfl⟩ := Prod.mk.inj (Option.some.inj h)
      exact (moreQuotes_steady bare (by decide) cs).append ['"', '"', '"'] fun _ _ _ read => read
  | case3 d cs ih =>
      obtain ⟨⟨content, rest⟩, read, told⟩ := Option.map_eq_some_iff.1 h
      cases told
      exact (ih read).consed ['\\', d] fun front inner => rfl
  | case4 d cs no_three no_escape ih =>
      obtain ⟨⟨content, rest⟩, read, told⟩ := Option.map_eq_some_iff.1 h
      cases told
      refine (ih read).consed [d] fun front inner => ?_
      rw [List.singleton_append, untilThreeQuotes.eq_4 _ _
        (not_begins_of_append_if bare ['"', '"'] (by decide) no_three inner)
        (no_escape_of_append no_escape inner)]
      rfl

theorem untilThreeApostrophes_steady {cs content rest : List Char}
    (h : untilThreeApostrophes cs = some (content, rest)) :
    SteadyAt left (c :: run) untilThreeApostrophes cs content rest := by
  fun_induction untilThreeApostrophes cs generalizing content with
  | case1 => cases h
  | case2 cs =>
      obtain ⟨rfl, rfl⟩ := Prod.mk.inj (Option.some.inj h)
      exact (moreQuotes_steady bare (by decide) cs).append ['\'', '\'', '\'']
        fun _ _ _ read => read
  | case3 d cs no_three ih =>
      obtain ⟨⟨content, rest⟩, read, told⟩ := Option.map_eq_some_iff.1 h
      cases told
      refine (ih read).consed [d] fun front inner => ?_
      rw [List.singleton_append, untilThreeApostrophes.eq_3 _ _
        (not_begins_of_append_if bare ['\'', '\''] (by decide) no_three inner)]
      rfl

omit bare in
theorem lineText_steady {cs rest : List Char} {s : String} (h : lineText? cs = some (s, rest)) :
    SteadyAt left (c :: run) lineText? cs s rest := by
  unfold lineText? at h
  split at h
  · obtain ⟨⟨content, rest⟩, read, h⟩ := Option.bind_eq_some_iff.1 h
    obtain ⟨text, unescaped, told⟩ := Option.bind_eq_some_iff.1 h
    cases told
    refine (untilQuote_steady read).append ['"'] fun front back inner read => ?_
    simp [lineText?, read, unescaped]
  · obtain ⟨⟨content, rest⟩, read, h⟩ := Option.bind_eq_some_iff.1 h
    obtain ⟨literal, told⟩ := Option.ite_none_right_eq_some.1 h
    cases told
    refine (untilApostrophe_steady read).append ['\''] fun front back inner read => ?_
    simp [lineText?, read, literal]
  · cases h

theorem text_steady {cs rest : List Char} {s : String} (h : text? cs = some (s, rest)) :
    SteadyAt left (c :: run) text? cs s rest := by
  rw [text?.eq_def] at h
  split at h
  · obtain ⟨⟨content, rest⟩, read, h⟩ := Option.bind_eq_some_iff.1 h
    obtain ⟨text, unescaped, told⟩ := Option.bind_eq_some_iff.1 h
    cases told
    refine (untilThreeQuotes_steady bare read).append ['"', '"', '"']
      fun front back inner read => ?_
    simp [text?, read, unescaped]
  · obtain ⟨⟨content, rest⟩, read, h⟩ := Option.bind_eq_some_iff.1 h
    obtain ⟨literal, told⟩ := Option.ite_none_right_eq_some.1 h
    cases told
    refine (untilThreeApostrophes_steady bare read).append ['\'', '\'', '\'']
      fun front back inner read => ?_
    simp [text?, read, literal]
  · next no_quotes no_apostrophes =>
    refine (lineText_steady h).map fun front back inner read => ?_
    rw [text?.eq_3, read]
    · exact not_begins_of_append bare ['"', '"', '"'] (by decide) no_quotes inner
    · exact not_begins_of_append bare ['\'', '\'', '\''] (by decide) no_apostrophes inner

/-! ## Keys and scalars -/

omit bare in
/-- The longest run of characters of one sort, if a `0` is of this sort. -/
theorem span_steady {p : Char → Bool} (zero : p '0' = true) (cs : List Char) :
    SteadyAt left (c :: run) (fun cs => some (cs.span p)) cs (cs.span p).1 (cs.span p).2 := by
  simp only [List.span_eq_takeWhile_dropWhile]
  induction cs with
  | nil => exact steadyAt_nil _ _
  | cons d cs ih =>
      by_cases sort : p d = true
      · rw [List.takeWhile_cons_of_pos sort, List.dropWhile_cons_of_pos sort]
        exact ih.consed [d] fun front inner => by simp [sort]
      · rw [List.takeWhile_cons_of_neg sort, List.dropWhile_cons_of_neg sort]
        refine steadyAt_stop [] fun front inner => ?_
        cases front with
        | nil =>
            obtain ⟨rfl, -⟩ := List.cons.inj inner
            exact absurd zero sort
        | cons e front =>
            obtain ⟨rfl, -⟩ := List.cons.inj inner
            simp [sort]

omit bare in
theorem key_steady {cs rest : List Char} {key : String} (h : key? cs = some (key, rest)) :
    SteadyAt left (c :: run) key? cs key rest := by
  unfold key? at h
  split at h
  next word rest' split =>
  split at h
  · next empty =>
    refine (lineText_steady h).map fun front back inner read => ?_
    have none_here : cs.takeWhile isBareKeyChar = [] := by
      rw [List.span_eq_takeWhile_dropWhile] at split
      rw [(Prod.mk.inj split).1]
      exact List.isEmpty_iff.1 empty
    have none_there : (front ++ c :: run).takeWhile isBareKeyChar = [] := by
      cases front with
      | nil =>
          rw [inner] at none_here
          cases none_here
      | cons e front =>
          rw [inner, List.cons_append, List.takeWhile_cons] at none_here
          rw [List.cons_append, List.takeWhile_cons]
          split at none_here
          · cases none_here
          · next other => rw [if_neg other]
    rw [key?, List.span_eq_takeWhile_dropWhile, none_there]
    exact read
  · next named =>
    cases h
    have steady := @span_steady left run c isBareKeyChar (by decide) cs
    rw [split] at steady
    refine steady.map fun front back inner read => ?_
    rw [key?, Option.some.inj read]
    exact if_neg named

/-- An unquoted scalar goes on to the place of the `0` if it goes on to what is written there. -/
theorem goesOn_append (front : List Char) :
    goesOn (front ++ '0' :: left) = goesOn (front ++ c :: run) := by
  induction front with
  | nil =>
      have on {d : Char} (bare : IsBare d) (rest : List Char) : goesOn (d :: rest) = true := by
        obtain ⟨no_end, no_blank, no_mark⟩ := bare
        have no_mark : d ≠ '"' ∧ d ≠ '\'' := by
          constructor <;> (rintro rfl; exact no_mark (by decide))
        simp [goesOn, skipBlanks, no_blank, no_end, no_mark]
      rw [List.nil_append, List.nil_append, on bare_zero, on bare]
  | cons d front ih =>
      by_cases blank : isBlank d
      · simpa [goesOn, skipBlanks, blank] using ih
      · simp [goesOn, skipBlanks, blank]

theorem scalarRun_steady (cs : List Char) :
    SteadyAt left (c :: run) (fun cs => some (scalarRun cs)) cs (scalarRun cs).1
      (scalarRun cs).2 := by
  induction cs with
  | nil => exact steadyAt_nil _ _
  | cons d cs ih =>
      by_cases ends : (isScalarEnd d || isBlank d && !goesOn cs) = true
      · rw [scalarRun, if_pos ends]
        refine steadyAt_stop [] fun front inner => ?_
        cases front with
        | nil =>
            obtain ⟨rfl, -⟩ := List.cons.inj inner
            cases ends
        | cons e front =>
            obtain ⟨rfl, later⟩ := List.cons.inj inner
            rw [later, List.append_eq, goesOn_append bare _] at ends
            rw [later, List.nil_append, List.cons_append, scalarRun, if_pos ends]
      · rw [scalarRun, if_neg ends]
        refine ih.consed [d] fun front inner => ?_
        subst inner
        rw [goesOn_append bare _] at ends
        rw [List.singleton_append, scalarRun, if_neg ends]
        rfl

theorem simpleValue_steady {cs rest : List Char} {v : Value}
    (h : simpleValue? cs = some (v, rest)) :
    SteadyAt left (c :: run) simpleValue? cs v rest := by
  unfold simpleValue? at h
  split at h
  · obtain ⟨⟨s, rest⟩, read, told⟩ := Option.map_eq_some_iff.1 h
    cases told
    refine (text_steady bare read).map fun front back inner read => ?_
    obtain ⟨front, rfl, -⟩ := eq_append_of_marks bare_zero ['"'] (by decide) inner.symm
    exact congrArg (Option.map _) read
  · obtain ⟨⟨s, rest⟩, read, told⟩ := Option.map_eq_some_iff.1 h
    cases told
    refine (text_steady bare read).map fun front back inner read => ?_
    obtain ⟨front, rfl, -⟩ := eq_append_of_marks bare_zero ['\''] (by decide) inner.symm
    exact congrArg (Option.map _) read
  · next no_quote no_apostrophe =>
    obtain ⟨v, named, told⟩ := Option.map_eq_some_iff.1 h
    cases told
    refine (scalarRun_steady bare cs).map fun front back inner read => ?_
    rw [simpleValue?.eq_3, Option.some.inj read]
    · exact congrArg (Option.map _) named
    · exact not_begins_of_append bare ['"'] (by decide) no_quote inner
    · exact not_begins_of_append bare ['\''] (by decide) no_apostrophe inner

end

end MeterGate.Toml
