import MeterGate.Proofs.Lookahead

set_option autoImplicit false

/-! # Numerals

A word that is written without quotes is read as a whole wherever a scalar may end after it
(`Toml.IsScalar.simpleValue?_eq`). The decimal digits of an integer, with a sign if it is negative,
are a word for that integer, however large it is (`Toml.isScalar_numeral`), and whatever is written
as a real is a word for a real and for nothing else (`Toml.exists_isScalar_real`). -/

namespace MeterGate.Toml

/-! ## Digits -/

theorem foldl_digitValue {ds : List Char} (digits : ∀ c ∈ ds, c.isDigit = true) (n : Nat) :
    ds.foldl (fun n d => n * 10 + digitValue d) n = Nat.ofDigitChars 10 ds n := by
  induction ds generalizing n with
  | nil => rfl
  | cons c rest ih =>
      obtain ⟨first, rest_digits⟩ := List.forall_mem_cons.1 digits
      have low : c.toNat ≤ '9'.toNat := by
        rw [Char.isDigit, Bool.and_eq_true, decide_eq_true_eq, decide_eq_true_eq] at first
        exact first.2
      rw [List.foldl_cons, Nat.ofDigitChars_cons, digitValue, if_pos low, Nat.mul_comm n]
      exact ih rest_digits _

theorem ofDigits_toDigits (n : Nat) : ofDigits 10 (Nat.toDigits 10 n) = n := by
  rw [ofDigits, foldl_digitValue fun _ => Nat.isDigit_of_mem_toDigits (by decide) (by decide)]
  exact Nat.ofDigitChars_ten_toDigits

/-- Only the digits of zero begin with a zero. -/
theorem eq_zero_of_head?_toDigits {n : Nat} (h : (Nat.toDigits 10 n).head? = some '0') : n = 0 := by
  induction n using Nat.base_induction 10 (by decide) with
  | single m small =>
      rw [Nat.toDigits_of_lt_base small] at h
      exact Nat.digitChar_eq_zero.1 (Option.some.inj h)
  | digit m k small pos ih =>
      rw [← Nat.toDigits_append_toDigits (by decide) pos small, List.head?_append] at h
      cases first : (Nat.toDigits 10 m).head? with
      | none => exact absurd (List.head?_eq_none_iff.1 first) Nat.toDigits_ne_nil
      | some c =>
          rw [first, Option.some_or] at h
          exact absurd (ih (first.trans h)) (Nat.ne_of_gt pos)

theorem digitRun?_digits {ds : List Char} (digits : ∀ c ∈ ds, c.isDigit = true) (h : ds ≠ []) :
    digitRun? Char.isDigit ds = some ds := by
  induction ds with
  | nil => exact absurd rfl h
  | cons c rest ih =>
      obtain ⟨first, rest_digits⟩ := List.forall_mem_cons.1 digits
      cases rest with
      | nil => rw [digitRun?, if_pos first]
      | cons d rest =>
          have no_underscore : d ≠ '_' := by
            rintro rfl
            exact absurd (rest_digits _ List.mem_cons_self) (by decide)
          rw [digitRun?, if_pos first, ih rest_digits (by simp)]
          · rfl
          · simp
          · simpa using no_underscore

theorem plainDigits?_toDigits (n : Nat) :
    plainDigits? (Nat.toDigits 10 n) = some (Nat.toDigits 10 n) := by
  rw [plainDigits?, digitRun?_digits (fun _ => Nat.isDigit_of_mem_toDigits (by decide) (by decide))
    Nat.toDigits_ne_nil]
  split
  · next d rest begins =>
      have begins := Option.some.inj begins
      have zero := eq_zero_of_head?_toDigits (n := n) (by rw [begins]; rfl)
      rw [zero] at begins
      cases begins
  · rfl

/-! ## What numerals are not -/

theorem eq_of_twoDigits? {cs rest : List Char} {n : Nat} (h : twoDigits? cs = some (n, rest)) :
    ∃ a b, (a.isDigit = true ∧ b.isDigit = true) ∧ cs = a :: b :: rest := by
  unfold twoDigits? at h
  split at h
  · next a b left =>
      split at h
      · next digits =>
          cases h
          exact ⟨a, b, Bool.and_eq_true_iff.1 digits, rfl⟩
      · cases h
  · cases h

/-- The first character that is no digit is a hyphen in a date, and a colon in a time of day. -/
theorem isMoment_eq_false {cs : List Char}
    (h : ∀ ds e rest, cs = ds ++ e :: rest → ds ≠ [] → (∀ d ∈ ds, d.isDigit = true) →
      e ≠ '-' ∧ e ≠ ':') : isMoment cs = false := by
  have no_date : afterDate? cs = none := by
    rw [afterDate?]
    cases first : twoDigits? cs with
    | none => rfl
    | some p =>
        obtain ⟨a, b, digits, rfl⟩ := eq_of_twoDigits? first
        cases second : twoDigits? p.2 with
        | none => simp [second]
        | some q =>
            obtain ⟨c, d, more_digits, split⟩ := eq_of_twoDigits? second
            have none_left : after? '-' q.2 = none := by
              rcases rest : q.2 with _ | ⟨e, rest'⟩
              · rfl
              · refine if_neg (h [a, b, c, d] e rest' ?_ (by simp) ?_).1
                · rw [split, rest]
                  rfl
                · simp [digits, more_digits]
            simp [second, none_left]
  have no_time : afterTime? cs = none := by
    rw [afterTime?]
    cases first : twoDigits? cs with
    | none => rfl
    | some p =>
        obtain ⟨a, b, digits, rfl⟩ := eq_of_twoDigits? first
        have none_left : after? ':' p.2 = none := by
          rcases rest : p.2 with _ | ⟨e, rest'⟩
          · rfl
          · refine if_neg (h [a, b] e rest' ?_ (by simp) ?_).2
            · rw [rest]
              rfl
            · simp [digits]
        simp [none_left]
  rw [isMoment, no_date, no_time]
  rfl

/-! ## Scalars -/

section

variable {ds : List Char} (digits : ∀ c ∈ ds, c.isDigit = true)

include digits

theorem isMoment_numeral : isMoment ds = false ∧ isMoment ('-' :: ds) = false := by
  constructor
  · refine isMoment_eq_false fun ds' e rest split _ _ => ?_
    have digit : e.isDigit = true := digits e (by simp [split])
    constructor <;> (rintro rfl; cases digit)
  · refine isMoment_eq_false fun ds' e rest split some_digit all => ?_
    cases ds' with
    | nil => exact absurd rfl some_digit
    | cons d ds' =>
        obtain ⟨rfl, -⟩ := List.cons.inj split
        cases all _ List.mem_cons_self

theorem splitSign_digits : splitSign ds = (false, ds) := by
  rw [splitSign.eq_def]
  split
  · exact absurd (digits '-' List.mem_cons_self) (by decide)
  · exact absurd (digits '+' List.mem_cons_self) (by decide)
  · rfl

end

/-- Digits are no word that has another character in it. -/
theorem ne_of_mem {ds word : List Char} (digits : ∀ c ∈ ds, c.isDigit = true) {c : Char}
    (mem : c ∈ word) (letter : c.isDigit = false) : ds ≠ word := by
  rintro rfl
  exact absurd (digits c mem) (by simp [letter])

theorem integer?_digits {n : Nat} :
    integer? (Nat.toDigits 10 n) = some (.integer n) ∧
      integer? ('-' :: Nat.toDigits 10 n) = some (.integer (-n)) := by
  have digits : ∀ c ∈ Nat.toDigits 10 n, c.isDigit = true :=
    fun _ => Nat.isDigit_of_mem_toDigits (by decide) (by decide)
  -- a prefix such as 0x has a letter in the second place
  have no_lead {c d : Char} {rest : List Char} (letter : d.isDigit = false) :
      Nat.toDigits 10 n ≠ c :: d :: rest :=
    ne_of_mem digits (List.mem_cons_of_mem _ List.mem_cons_self) letter
  constructor
  · unfold integer?
    split
    · next h => exact absurd h (no_lead (by decide))
    · next h => exact absurd h (no_lead (by decide))
    · next h => exact absurd h (no_lead (by decide))
    · simp [splitSign_digits digits, plainDigits?_toDigits, ofDigits_toDigits]
  · simp [integer?, splitSign, plainDigits?_toDigits, ofDigits_toDigits]

theorem scalar?_digits {n : Nat} :
    scalar? (Nat.toDigits 10 n) = some (.integer n) ∧
      scalar? ('-' :: Nat.toDigits 10 n) = some (.integer (-n)) := by
  have digits : ∀ c ∈ Nat.toDigits 10 n, c.isDigit = true :=
    fun _ => Nat.isDigit_of_mem_toDigits (by decide) (by decide)
  have no_word {word : List Char} {c : Char} (mem : c ∈ word) (letter : c.isDigit = false) :=
    ne_of_mem digits mem letter
  obtain ⟨no_moment, no_signed_moment⟩ := isMoment_numeral digits
  obtain ⟨read, read_signed⟩ := integer?_digits (n := n)
  constructor
  · have no_name : namedReal? (Nat.toDigits 10 n) = none := by
      simp only [namedReal?, splitSign_digits digits]
      rw [if_neg (no_word (c := 'i') (by simp) (by decide)),
        if_neg (no_word (c := 'n') (by simp) (by decide))]
    rw [scalar?, if_neg (no_word (c := 't') (by simp) (by decide)),
      if_neg (no_word (c := 'f') (by simp) (by decide)), no_moment, no_name, read]
    rfl
  · have no_name : namedReal? ('-' :: Nat.toDigits 10 n) = none := by
      simp only [namedReal?, splitSign]
      rw [if_neg (no_word (c := 'i') (by simp) (by decide)),
        if_neg (no_word (c := 'n') (by simp) (by decide))]
    rw [scalar?, if_neg (by simp), if_neg (by simp), no_signed_moment, no_name, read_signed]
    rfl

/-! ## Words -/

/-- A character that stands in the middle of a scalar, whatever follows it. -/
def IsInner (c : Char) : Prop := isScalarEnd c = false ∧ isBlank c = false

instance (c : Char) : Decidable (IsInner c) := by unfold IsInner; infer_instance

/-- A word that is read as a value: it begins as a numeral or a name does, and does not end before
    its last character. -/
structure IsScalar (word : String) (v : Value) : Prop where
  bare : ∃ c run, word.toList = c :: run ∧ IsBare c
  inner : ∀ c ∈ word.toList, IsInner c
  read : scalar? word.toList = some v

theorem isBare_of_isDigit {c : Char} (digit : c.isDigit = true) : IsBare c := by
  refine ⟨?_, ?_, fun mem => ?_⟩
  · by_contra ends
    simp only [isScalarEnd, Bool.not_eq_false, Bool.or_eq_true, decide_eq_true_eq] at ends
    rcases ends with (((((((rfl | rfl) | rfl) | rfl) | rfl) | rfl) | rfl) | rfl) | rfl <;>
      cases digit
  · by_contra blank
    simp only [isBlank, Bool.not_eq_false, Bool.or_eq_true, decide_eq_true_eq] at blank
    rcases blank with rfl | rfl <;> cases digit
  · simp only [List.mem_cons, List.not_mem_nil, or_false] at mem
    rcases mem with rfl | rfl | rfl | rfl | rfl <;> cases digit

theorem IsBare.isInner {c : Char} (bare : IsBare c) : IsInner c := ⟨bare.1, bare.2.1⟩

/-- Characters none of which ends a scalar are all of one, up to where it may end. -/
theorem scalarRun_append {run rest : List Char} (inner : ∀ c ∈ run, IsInner c)
    (ends : scalarRun rest = ([], rest)) : scalarRun (run ++ rest) = (run, rest) := by
  induction run with
  | nil => exact ends
  | cons c run ih =>
      obtain ⟨⟨no_end, no_blank⟩, inner⟩ := List.forall_mem_cons.1 inner
      rw [List.cons_append, scalarRun, if_neg (by simp [no_end, no_blank]), ih inner]

/-- A word is read as a whole wherever a scalar may end after it. -/
theorem IsScalar.simpleValue?_eq {word : String} {v : Value} (h : IsScalar word v)
    {rest : List Char} (ends : scalarRun rest = ([], rest)) :
    simpleValue? (word.toList ++ rest) = some (v, rest) := by
  obtain ⟨c, run, begins, bare⟩ := h.bare
  rw [simpleValue?.eq_3, scalarRun_append h.inner ends]
  · exact congrArg (Option.map _) h.read
  · intro tail split
    rw [begins] at split
    exact absurd (List.cons.inj split).1 (bare.ne (by decide))
  · intro tail split
    rw [begins] at split
    exact absurd (List.cons.inj split).1 (bare.ne (by decide))

/-- **Numerals.** The digits of an integer, with a sign if it is negative, stand for this
    integer. -/
theorem isScalar_numeral (n : Int) : IsScalar (toString n) (.integer n) := by
  have bare (m : Nat) : ∀ c ∈ Nat.toDigits 10 m, IsBare c := fun _ mem =>
    isBare_of_isDigit (Nat.isDigit_of_mem_toDigits (by decide) (by decide) mem)
  cases n with
  | ofNat m =>
      have numeral : (toString (Int.ofNat m)).toList = Nat.toDigits 10 m := Nat.toList_repr
      refine ⟨?_, fun c mem => (bare m c (numeral ▸ mem)).isInner, ?_⟩
      · cases split : Nat.toDigits 10 m with
        | nil => exact absurd split Nat.toDigits_ne_nil
        | cons c run => exact ⟨c, run, numeral.trans split, bare m c (by simp [split])⟩
      · rw [numeral]
        exact scalar?_digits.1
  | negSucc m =>
      have numeral : (toString (Int.negSucc m)).toList = '-' :: Nat.toDigits 10 (m + 1) := by
        rw [Int.toString_eq_repr, Int.repr, String.toList_append, Nat.toList_repr]
        rfl
      refine ⟨⟨_, _, numeral, by decide⟩, fun c mem => ?_, ?_⟩
      · rcases List.mem_cons.1 (numeral ▸ mem) with rfl | mem
        · decide
        · exact (bare _ c mem).isInner
      · rw [numeral]
        exact scalar?_digits.2

/-! ## Reals -/

/-- Decimal digits, with single underscores between some of them. -/
inductive IsDigits : List Char → Prop
  | one {d : Char} (digit : d.isDigit = true) : IsDigits [d]
  | next {d : Char} {ds : List Char} (digit : d.isDigit = true) (rest : IsDigits ds) :
      IsDigits (d :: ds)
  | spaced {d : Char} {ds : List Char} (digit : d.isDigit = true) (rest : IsDigits ds) :
      IsDigits (d :: '_' :: ds)

/-- The signs that a number may have. -/
def signs : List (List Char) := [[], ['+'], ['-']]

/-- An exponent with its mark. -/
inductive IsExponent : List Char → Prop
  | intro {mark : Char} {sign ds : List Char} (marked : mark = 'e' ∨ mark = 'E')
      (signed : sign ∈ signs) (digits : IsDigits ds) : IsExponent (mark :: (sign ++ ds))

/-- What makes digits a real: a fraction, an exponent or both. -/
inductive IsRealTail : List Char → Prop
  | exponent {tail : List Char} (scaled : IsExponent tail) : IsRealTail tail
  | fraction {ds : List Char} (digits : IsDigits ds) : IsRealTail ('.' :: ds)
  | both {ds tail : List Char} (digits : IsDigits ds) (scaled : IsExponent tail) :
      IsRealTail ('.' :: (ds ++ tail))

/-- A real as it is written: infinity or NaN by name, or whole digits without a leading zero and
    more. -/
inductive IsRealNumeral : List Char → Prop
  | named {sign name : List Char} (signed : sign ∈ signs)
      (listed : name = ['i', 'n', 'f'] ∨ name = ['n', 'a', 'n']) : IsRealNumeral (sign ++ name)
  | decimal {sign whole tail : List Char} (signed : sign ∈ signs) (digits : IsDigits whole)
      (no_lead : whole.head? = some '0' → whole = ['0']) (more : IsRealTail tail) :
      IsRealNumeral (sign ++ (whole ++ tail))

theorem IsDigits.mem {ds : List Char} (h : IsDigits ds) {c : Char} (mem : c ∈ ds) :
    c.isDigit = true ∨ c = '_' := by
  induction h with
  | one digit =>
      obtain rfl := List.mem_singleton.1 mem
      exact .inl digit
  | next digit _ ih =>
      rcases List.mem_cons.1 mem with rfl | mem
      · exact .inl digit
      · exact ih mem
  | spaced digit _ ih =>
      rcases List.mem_cons.1 mem with rfl | mem
      · exact .inl digit
      · rcases List.mem_cons.1 mem with rfl | mem
        · exact .inr rfl
        · exact ih mem

theorem IsDigits.eq_cons {ds : List Char} (h : IsDigits ds) :
    ∃ d rest, ds = d :: rest ∧ d.isDigit = true := by
  cases h with
  | one digit | next digit _ | spaced digit _ => exact ⟨_, _, rfl, digit⟩

theorem IsDigits.digitRun?_eq {ds : List Char} (h : IsDigits ds) :
    ∃ plain, digitRun? Char.isDigit ds = some plain ∧ plain.head? = ds.head? := by
  induction h with
  | @one d digit => exact ⟨[d], if_pos digit, rfl⟩
  | @next d ds digit rest ih =>
      obtain ⟨plain, read, -⟩ := ih
      obtain ⟨e, ds, rfl, next_digit⟩ := rest.eq_cons
      have no_underscore : e ≠ '_' := by
        rintro rfl
        cases next_digit
      refine ⟨d :: plain, ?_, rfl⟩
      rw [digitRun?.eq_4, if_pos digit, read]
      · rfl
      · simp
      · simpa using no_underscore
  | @spaced d ds digit rest ih =>
      obtain ⟨plain, read, -⟩ := ih
      exact ⟨d :: plain, by rw [digitRun?, if_pos digit, read]; rfl, rfl⟩

theorem mem_of_digitRun? {cs ds : List Char} (h : digitRun? Char.isDigit cs = some ds) {c : Char}
    (mem : c ∈ cs) : c.isDigit = true ∨ c = '_' := by
  fun_induction digitRun? Char.isDigit cs generalizing ds with
  | case1 => cases h
  | case2 d digit =>
      obtain rfl := List.mem_singleton.1 mem
      exact .inl digit
  | case3 => cases h
  | case4 d rest digit ih =>
      obtain ⟨ds, read, -⟩ := Option.map_eq_some_iff.1 h
      rcases List.mem_cons.1 mem with rfl | mem
      · exact .inl digit
      · rcases List.mem_cons.1 mem with rfl | mem
        · exact .inr rfl
        · exact ih read mem
  | case5 => cases h
  | case6 d rest _ _ digit ih =>
      obtain ⟨ds, read, -⟩ := Option.map_eq_some_iff.1 h
      rcases List.mem_cons.1 mem with rfl | mem
      · exact .inl digit
      · exact ih read mem
  | case7 => cases h

theorem plainDigits?_isSome {whole : List Char} (digits : IsDigits whole)
    (no_lead : whole.head? = some '0' → whole = ['0']) :
    ∃ plain, plainDigits? whole = some plain := by
  obtain ⟨plain, read, head⟩ := digits.digitRun?_eq
  refine ⟨plain, ?_⟩
  rw [plainDigits?, read]
  split
  · next begins =>
      cases begins
      obtain rfl := no_lead (head.symm.trans rfl)
      cases read
  · rfl

theorem splitSign_append {sign body : List Char} (signed : sign ∈ signs)
    (unsigned : ∀ c ∈ body.head?, c ≠ '-' ∧ c ≠ '+') :
    ∃ negative, splitSign (sign ++ body) = (negative, body) := by
  simp only [signs, List.mem_cons, List.not_mem_nil, or_false] at signed
  rcases signed with rfl | rfl | rfl
  · refine ⟨false, ?_⟩
    rw [List.nil_append, splitSign.eq_def]
    split
    · exact absurd rfl (unsigned _ rfl).1
    · exact absurd rfl (unsigned _ rfl).2
    · rfl
  · exact ⟨false, rfl⟩
  · exact ⟨true, rfl⟩

theorem IsDigits.unsigned {ds : List Char} (h : IsDigits ds) (rest : List Char) :
    ∀ c ∈ (ds ++ rest).head?, c ≠ '-' ∧ c ≠ '+' := by
  obtain ⟨d, ds, rfl, digit⟩ := h.eq_cons
  rintro c mem
  cases mem
  constructor <;> (rintro rfl; cases digit)

theorem IsExponent.exponent?_eq {tail : List Char} (h : IsExponent tail) :
    ∃ mark rest e, tail = mark :: rest ∧ (mark = 'e' ∨ mark = 'E') ∧ exponent? rest = some e := by
  obtain ⟨marked, signed, digits⟩ := h
  obtain ⟨plain, read, -⟩ := digits.digitRun?_eq
  obtain ⟨negative, split⟩ := splitSign_append signed (by simpa using digits.unsigned [])
  exact ⟨_, _, _, rfl, marked, by simp only [exponent?, split, read]; rfl⟩

/-- A fraction or an exponent begins with its mark. -/
theorem IsRealTail.begins {tail : List Char} (h : IsRealTail tail) :
    ∃ mark rest, tail = mark :: rest ∧ (mark = '.' ∨ mark = 'e' ∨ mark = 'E') := by
  cases h with
  | exponent scaled =>
      obtain ⟨mark, rest, -, split, marked, -⟩ := scaled.exponent?_eq
      exact ⟨mark, rest, split, .inr marked⟩
  | fraction _ | both _ _ => exact ⟨'.', _, rfl, .inl rfl⟩

theorem span_append {p : Char → Bool} {front rest : List Char} (all : ∀ c ∈ front, p c = true)
    (stop : ∀ c ∈ rest.head?, p c = false) : (front ++ rest).span p = (front, rest) := by
  rw [List.span_eq_takeWhile_dropWhile, List.takeWhile_append_of_pos all,
    List.dropWhile_append_of_pos all]
  cases rest with
  | nil => simp
  | cons c rest => simp [stop c rfl]

section

variable {whole : List Char} (digits : IsDigits whole)
  (no_lead : whole.head? = some '0' → whole = ['0'])

include digits

theorem IsDigits.ne_mark {c : Char} (mem : c ∈ whole) : c ≠ '.' ∧ c ≠ 'e' ∧ c ≠ 'E' := by
  rcases digits.mem mem with digit | rfl
  · refine ⟨?_, ?_, ?_⟩ <;> (rintro rfl; cases digit)
  · decide

include no_lead

theorem mantissa?_whole : ∃ m, mantissa? whole = some m := by
  obtain ⟨plain, read⟩ := plainDigits?_isSome digits no_lead
  have split := @span_append (· ≠ '.') whole [] (by simpa using fun c mem => (digits.ne_mark mem).1)
    (by simp)
  rw [List.append_nil] at split
  exact ⟨_, by simp only [mantissa?, split, read]; rfl⟩

theorem mantissa?_fraction {ds : List Char} (more : IsDigits ds) :
    ∃ m, mantissa? (whole ++ '.' :: ds) = some m := by
  obtain ⟨plain, read⟩ := plainDigits?_isSome digits no_lead
  obtain ⟨fraction, read_fraction, -⟩ := more.digitRun?_eq
  have split := @span_append (· ≠ '.') whole ('.' :: ds)
    (by simpa using fun c mem => (digits.ne_mark mem).1) (by simp)
  exact ⟨_, by simp only [mantissa?, split, read, read_fraction]; rfl⟩

theorem decimal?_eq {sign tail : List Char} (signed : sign ∈ signs) (more : IsRealTail tail) :
    ∃ negative coefficient exponent,
      decimal? (sign ++ (whole ++ tail)) = some (realValue negative coefficient exponent) := by
  obtain ⟨negative, unsigned⟩ := splitSign_append signed (digits.unsigned tail)
  have fraction_plain {ds : List Char} (digits' : IsDigits ds) :
      ∀ c ∈ whole ++ '.' :: ds, (c ≠ 'e' && c ≠ 'E') = true := by
    intro c mem
    rcases List.mem_append.1 mem with mem | mem
    · simp [digits.ne_mark mem]
    · rcases List.mem_cons.1 mem with rfl | mem
      · decide
      · simp [digits'.ne_mark mem]
  cases more with
  | exponent scaled =>
      obtain ⟨m, read⟩ := mantissa?_whole digits no_lead
      obtain ⟨mark, rest, e, rfl, marked, read_exponent⟩ := scaled.exponent?_eq
      have split := @span_append (fun c => c ≠ 'e' && c ≠ 'E') whole (mark :: rest)
        (fun c mem => by simp [digits.ne_mark mem]) (by rcases marked with rfl | rfl <;> simp)
      simp only [decimal?, unsigned, split, read, read_exponent]
      exact ⟨_, _, _, rfl⟩
  | @fraction ds digits' =>
      obtain ⟨m, read⟩ := mantissa?_fraction digits no_lead digits'
      have split := @span_append _ _ [] (fraction_plain digits') (by simp)
      rw [List.append_nil] at split
      have pointed : (whole ++ '.' :: ds).contains '.' = true := by simp
      simp only [decimal?, unsigned, split, read, pointed]
      exact ⟨_, _, _, rfl⟩
  | @both ds tail digits' scaled =>
      obtain ⟨m, read⟩ := mantissa?_fraction digits no_lead digits'
      obtain ⟨mark, rest, e, rfl, marked, read_exponent⟩ := scaled.exponent?_eq
      have split := @span_append _ _ (mark :: rest) (fraction_plain digits')
        (by rcases marked with rfl | rfl <;> simp)
      rw [List.append_assoc, List.cons_append] at split
      simp only [decimal?, unsigned, split, read, read_exponent]
      exact ⟨_, _, _, rfl⟩

end

/-- The characters of numerals other than digits. -/
def numeralMarks : List Char := ['_', '.', 'e', 'E', '+', '-']

theorem mem_of_signs {sign : List Char} (signed : sign ∈ signs) {c : Char} (mem : c ∈ sign) :
    c = '+' ∨ c = '-' := by
  simp only [signs, List.mem_cons, List.not_mem_nil, or_false] at signed
  rcases signed with rfl | rfl | rfl <;> simp_all

theorem IsExponent.mem {tail : List Char} (h : IsExponent tail) {c : Char} (mem : c ∈ tail) :
    c.isDigit = true ∨ c ∈ numeralMarks := by
  obtain ⟨marked, signed, digits⟩ := h
  rcases List.mem_cons.1 mem with rfl | mem
  · rcases marked with rfl | rfl <;> decide
  · rcases List.mem_append.1 mem with mem | mem
    · rcases mem_of_signs signed mem with rfl | rfl <;> decide
    · rcases digits.mem mem with digit | rfl
      · exact .inl digit
      · decide

theorem IsDigits.mem_numeral {ds : List Char} (h : IsDigits ds) {c : Char} (mem : c ∈ ds) :
    c.isDigit = true ∨ c ∈ numeralMarks := by
  rcases h.mem mem with digit | rfl
  · exact .inl digit
  · decide

theorem IsRealTail.mem {tail : List Char} (h : IsRealTail tail) {c : Char} (mem : c ∈ tail) :
    c.isDigit = true ∨ c ∈ numeralMarks := by
  cases h with
  | exponent scaled => exact scaled.mem mem
  | fraction digits =>
      rcases List.mem_cons.1 mem with rfl | mem
      · decide
      · exact digits.mem_numeral mem
  | both digits scaled =>
      rcases List.mem_cons.1 mem with rfl | mem
      · decide
      · rcases List.mem_append.1 mem with mem | mem
        · exact digits.mem_numeral mem
        · exact scaled.mem mem

section

variable {sign whole tail : List Char} (signed : sign ∈ signs) (digits : IsDigits whole)
  (more : IsRealTail tail)

include signed digits more

theorem mem_decimal {c : Char} (mem : c ∈ sign ++ (whole ++ tail)) :
    c.isDigit = true ∨ c ∈ numeralMarks := by
  rcases List.mem_append.1 mem with mem | mem
  · rcases mem_of_signs signed mem with rfl | rfl <;> decide
  · rcases List.mem_append.1 mem with mem | mem
    · exact digits.mem_numeral mem
    · exact more.mem mem

/-- The first character of a real that is no digit is no hyphen, but for its sign. -/
theorem isMoment_decimal : isMoment (sign ++ (whole ++ tail)) = false := by
  refine isMoment_eq_false fun ds e rest split some_digit all => ?_
  obtain ⟨mark, after, rfl, marked⟩ := more.begins
  have mark_fits : mark ≠ '-' ∧ mark ≠ ':' ∧ mark.isDigit = false := by
    rcases marked with rfl | rfl | rfl <;> decide
  cases sign with
  | cons s sign =>
      cases ds with
      | nil => exact absurd rfl some_digit
      | cons d ds =>
          obtain ⟨rfl, -⟩ := List.cons.inj split
          have digit := all _ List.mem_cons_self
          rcases mem_of_signs signed List.mem_cons_self with rfl | rfl <;> cases digit
  | nil =>
      rw [List.nil_append] at split
      rcases List.append_eq_append_iff.1 split with ⟨beyond, rfl, inner⟩ | ⟨beyond, rfl, inner⟩
      · cases beyond with
        | nil =>
            obtain ⟨rfl, -⟩ := List.cons.inj inner
            exact ⟨mark_fits.1, mark_fits.2.1⟩
        | cons d beyond =>
            obtain ⟨rfl, -⟩ := List.cons.inj inner
            exact absurd (all mark (by simp)) (by simp [mark_fits.2.2])
      · cases beyond with
        | nil =>
            obtain ⟨rfl, -⟩ := List.cons.inj inner
            exact ⟨mark_fits.1, mark_fits.2.1⟩
        | cons d beyond =>
            obtain ⟨rfl, -⟩ := List.cons.inj inner
            rcases digits.mem (show e ∈ ds ++ e :: beyond by simp) with digit | rfl
            · constructor <;> (rintro rfl; cases digit)
            · decide

/-- A real has a mark that no integer has. -/
theorem integer?_decimal : integer? (sign ++ (whole ++ tail)) = none := by
  have no_letter {c : Char} (letter : c = 'x' ∨ c = 'o' ∨ c = 'b') :
      c ∉ sign ++ (whole ++ tail) := by
    intro mem
    rcases mem_decimal signed digits more mem with digit | mem
    · rcases letter with rfl | rfl | rfl <;> cases digit
    · rcases letter with rfl | rfl | rfl <;> exact absurd mem (by decide)
  obtain ⟨negative, unsigned⟩ := splitSign_append signed (digits.unsigned tail)
  have no_run : digitRun? Char.isDigit (whole ++ tail) = none := by
    cases read : digitRun? Char.isDigit (whole ++ tail) with
    | none => rfl
    | some ds =>
        obtain ⟨mark, after, rfl, marked⟩ := more.begins
        rcases mem_of_digitRun? read (c := mark) (by simp) with digit | rfl
        · rcases marked with rfl | rfl | rfl <;> cases digit
        · rcases marked with h | h | h <;> cases h
  unfold integer?
  split
  · next split => exact absurd (by simp [split]) (no_letter (.inl rfl))
  · next split => exact absurd (by simp [split]) (no_letter (.inr (.inl rfl)))
  · next split => exact absurd (by simp [split]) (no_letter (.inr (.inr rfl)))
  · simp [unsigned, plainDigits?, no_run]

end

theorem scalar?_decimal {sign whole tail : List Char} (signed : sign ∈ signs)
    (digits : IsDigits whole) (no_lead : whole.head? = some '0' → whole = ['0'])
    (more : IsRealTail tail) :
    ∃ v, scalar? (sign ++ (whole ++ tail)) = some v ∧ (v = .vastReal ∨ ∃ x, v = .real x) := by
  obtain ⟨negative, coefficient, exponent, read⟩ := decimal?_eq digits no_lead signed more
  obtain ⟨negative', unsigned⟩ := splitSign_append signed (digits.unsigned tail)
  obtain ⟨d, rest, begins, digit⟩ := digits.eq_cons
  have no_word {word : List Char} (letters : word.any Char.isDigit = false) {cs : List Char}
      (mem : d ∈ cs) : cs ≠ word := by
    rintro rfl
    exact List.any_eq_false.1 letters d mem digit
  have no_name : namedReal? (sign ++ (whole ++ tail)) = none := by
    simp only [namedReal?, unsigned]
    rw [if_neg (no_word (by decide) (by simp [begins])),
      if_neg (no_word (by decide) (by simp [begins]))]
  refine ⟨realValue negative coefficient exponent, ?_, ?_⟩
  · rw [scalar?, if_neg (no_word (by decide) (by simp [begins])),
      if_neg (no_word (by decide) (by simp [begins])), isMoment_decimal signed digits more, no_name,
      integer?_decimal signed digits more, read]
    rfl
  · rw [realValue]
    split
    · exact .inr ⟨_, rfl⟩
    · exact .inl rfl

/-- **Reals.** What is written as a real is read as one, however large it is. -/
theorem exists_isScalar_real {word : String} (h : IsRealNumeral word.toList) :
    ∃ v, IsScalar word v ∧ (v = .vastReal ∨ ∃ x, v = .real x) := by
  generalize split : word.toList = cs at h
  have whole_word {v : Value} (bare : ∃ c run, cs = c :: run ∧ IsBare c)
      (inner : ∀ c ∈ cs, IsInner c) (read : scalar? cs = some v) : IsScalar word v := by
    subst split
    exact ⟨bare, inner, read⟩
  cases h with
  | named signed listed =>
      simp only [signs, List.mem_cons, List.not_mem_nil, or_false] at signed
      rcases signed with rfl | rfl | rfl <;> rcases listed with rfl | rfl <;>
        exact ⟨_, whole_word ⟨_, _, rfl, by decide⟩ (by simp [IsInner, isScalarEnd, isBlank]) rfl,
          .inr ⟨_, rfl⟩⟩
  | @decimal sign whole tail signed digits no_lead more =>
      have marks : ∀ c ∈ numeralMarks, IsInner c := by
        simp [numeralMarks, IsInner, isScalarEnd, isBlank]
      have inner : ∀ c ∈ sign ++ (whole ++ tail), IsInner c := fun c mem =>
        (mem_decimal signed digits more mem).elim (fun digit => (isBare_of_isDigit digit).isInner)
          (marks c)
      obtain ⟨v, read, real⟩ := scalar?_decimal signed digits no_lead more
      refine ⟨v, whole_word ?_ inner read, real⟩
      obtain ⟨d, rest, rfl, digit⟩ := digits.eq_cons
      cases sign with
      | nil => exact ⟨d, _, rfl, isBare_of_isDigit digit⟩
      | cons s sign =>
          refine ⟨s, _, rfl, ?_⟩
          rcases mem_of_signs signed List.mem_cons_self with rfl | rfl <;> decide

end MeterGate.Toml
