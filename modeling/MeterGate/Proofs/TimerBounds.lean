import MeterGate.Proofs.NearestNatural
import MeterGate.Proofs.RuleEffect

set_option autoImplicit false

/-! # Bounds of timers

A timer is bounded by a length of time, and its histogram is in nanoseconds. The number of them is
put together as a whole number, which has up to 94 bits, and converted in one step
(`Duration.isNearest_iff`). So a longer time never gives a lower bound (`Duration.toBound_mono`),
and up to 2^53 nanoseconds the bound is the length of time itself (`Duration.isInteger_toBound`). -/

namespace MeterGate

namespace Duration

/-- One length of time is no longer than another: it has fewer whole seconds, or as many and no more
    nanoseconds besides. -/
def NoLonger (d d' : Duration) : Prop :=
  d.secs < d'.secs ∨ d.secs = d'.secs ∧ d.nanos ≤ d'.nanos

variable {d d' : Duration}

/-! ## Nanoseconds -/

theorem totalNanos_lt (d : Duration) : d.totalNanos < 2 ^ 128 := by
  have secs := d.secs.toNat_lt
  have nanos := d.nanos_lt
  unfold totalNanos
  omega

theorem totalNanos_le (h : d.NoLonger d') : d.totalNanos ≤ d'.totalNanos := by
  have nanos := d.nanos_lt
  unfold totalNanos
  rcases h with fewer | ⟨same, le⟩
  · have secs := UInt64.lt_iff_toNat_lt.1 fewer
    omega
  · rw [same]
    omega

theorem eq_of_totalNanos_eq (h : d.totalNanos = d'.totalNanos) : d = d' := by
  obtain ⟨secs, nanos, small⟩ := d
  obtain ⟨secs', nanos', small'⟩ := d'
  simp only [totalNanos] at h
  obtain rfl : secs = secs' := UInt64.toNat_inj.1 (by omega)
  obtain rfl : nanos = nanos' := by omega
  rfl

/-! ## Conversion -/

theorem isNearest_iff (d : Duration) (x : Binary64) :
    Binary64.IsNearest d.totalNanos x ↔ x = d.toBound := by
  rw [Binary64.isNearest_iff (by simpa using d.totalNanos_lt), Binary64.ofInt_natCast]
  rfl

theorem toBound_mono (h : d.NoLonger d') : Binary64.le d.toBound d'.toBound = true := by
  have codes := Magnitude.nearest_mono (totalNanos_le h) 1
  simp only [toBound, Binary64.ofNat, Binary64.le, Binary64.lt, Binary64.eq, Binary64.rank,
    Bool.false_eq_true, if_false, Bool.or_eq_true, decide_eq_true_eq, beq_iff_eq]
  omega

/-- Up to 2^53 nanoseconds nothing is rounded off. -/
theorem isInteger_toBound (h : d.totalNanos ≤ 2 ^ 53) :
    Binary64.IsInteger d.totalNanos d.toBound := by
  refine ⟨Magnitude.nearest d.totalNanos 1, ?_, ?_⟩
  · rw [toBound, ← Binary64.ofInt_natCast]
    rfl
  · rw [Int.natAbs_natCast]
    exact Magnitude.units_nearest h

theorem eq_of_toBound_eq (h : d.totalNanos ≤ 2 ^ 53) (h' : d'.totalNanos ≤ 2 ^ 53)
    (same : d.toBound = d'.toBound) : d = d' := by
  refine eq_of_totalNanos_eq ?_
  have units :
      (Magnitude.nearest d.totalNanos 1).units = (Magnitude.nearest d'.totalNanos 1).units :=
    congrArg Magnitude.units (Binary64.number.inj same).2
  rw [Magnitude.units_nearest h, Magnitude.units_nearest h'] at units
  exact (Magnitude.shiftLeft_strictMono 1074).injective units

theorem totalNanos_duration {b : ExpectedBound} {millis : UInt64} (given : b.millis = some millis) :
    b.duration.totalNanos = millis.toNat * 10 ^ 6 := by
  rw [ExpectedBound.duration, given]
  exact totalNanos_ofMillis millis

end Duration

/-! ## Filters -/

namespace StockFilter

variable {start : String} {id : MeterId} (timer : id.type = .timer)
  (named : id.nameStartsWith start = true)
include timer named

theorem configure_maxExpectedTimer (d : Duration) (config : DistributionConfig) :
    (maxExpectedTimer start d).toFilter.configure id config
      = pure { config with maximum := some d.toBound } := by
  rw [← Rule.ofMaximum_merge]
  exact congrArg pure (if_pos ⟨timer, named⟩)

theorem configure_minExpectedTimer (d : Duration) (config : DistributionConfig) :
    (minExpectedTimer start d).toFilter.configure id config
      = pure { config with minimum := some d.toBound } := by
  rw [← Rule.ofMinimum_merge]
  exact congrArg pure (if_pos ⟨timer, named⟩)

end StockFilter

/-- **Bounds of timers are converted once.** For a timer whose name begins as given, the filters of
    a maximum and a minimum set the one double that is nearest to the whole number of nanoseconds of
    their length of time, ties going to the even one; and so do the filters of rules, whose length
    of time is a number of milliseconds. A longer time is never a lower bound, and up to 2^53
    nanoseconds the bound is the number itself, and different times have different bounds. -/
theorem StockFilter.timerBounds_nearest :
    (∀ (start : String) (d : Duration),
      (∀ x, Binary64.IsNearest (d.secs.toNat * 10 ^ 9 + d.nanos : Nat) x ↔ x = d.toBound) ∧
      ∀ (id : MeterId) (config : DistributionConfig),
        id.type = .timer → id.nameStartsWith start = true →
        (maxExpectedTimer start d).toFilter.configure id config
          = pure { config with maximum := some d.toBound } ∧
        (minExpectedTimer start d).toFilter.configure id config
          = pure { config with minimum := some d.toBound }) ∧
    (∀ (b : ExpectedBound) (millis : UInt64), b.type = .timer → b.millis = some millis →
      ∃ bound, (∀ x, Binary64.IsNearest (millis.toNat * 10 ^ 6 : Nat) x ↔ x = bound) ∧
        ∀ (s : Store) (id : MeterId) (config : DistributionConfig),
          id.type = .timer → id.nameStartsWith b.start = true →
          (Rule.build (.maxExpected b) s).1.toFilter.configure id config
            = pure { config with maximum := some bound } ∧
          (Rule.build (.minExpected b) s).1.toFilter.configure id config
            = pure { config with minimum := some bound }) ∧
    (∀ d d' : Duration, d.NoLonger d' → Binary64.le d.toBound d'.toBound = true) ∧
    (∀ d : Duration, d.secs.toNat * 10 ^ 9 + d.nanos ≤ 2 ^ 53 →
      Binary64.IsInteger (d.secs.toNat * 10 ^ 9 + d.nanos : Nat) d.toBound) ∧
    ∀ d d' : Duration, d.secs.toNat * 10 ^ 9 + d.nanos ≤ 2 ^ 53 →
      d'.secs.toNat * 10 ^ 9 + d'.nanos ≤ 2 ^ 53 → d.toBound = d'.toBound → d = d' := by
  refine ⟨fun start d => ⟨d.isNearest_iff, fun id config timer named => ?_⟩, ?_,
    fun d d' => Duration.toBound_mono, fun d => Duration.isInteger_toBound,
    fun d d' => Duration.eq_of_toBound_eq⟩
  · exact ⟨configure_maxExpectedTimer timer named d config,
      configure_minExpectedTimer timer named d config⟩
  · intro b millis isTimer given
    refine ⟨b.duration.toBound, fun x => ?_, fun s id config timer named => ?_⟩
    · rw [← Duration.totalNanos_duration given]
      exact b.duration.isNearest_iff x
    · simp only [Rule.build, ExpectedBound.maxFilter, ExpectedBound.minFilter, isTimer]
      exact ⟨configure_maxExpectedTimer timer named _ config,
        configure_minExpectedTimer timer named _ config⟩

/-- The longest time there is has 94 bits of nanoseconds, and its bound is the double of one more;
    the longest rule has 84. Two times next to each other are told apart at 2^53 nanoseconds. -/
theorem StockFilter.timerBounds_nearest_longest :
    let longest : Duration := ⟨18446744073709551615, 999999999, by decide⟩
    let most : ExpectedBound := ⟨"db", .timer, some 18446744073709551615, none⟩
    let exact : Duration := ⟨9007199, 254740992, by decide⟩
    let before : Duration := ⟨9007199, 254740991, by decide⟩
    let id : MeterId := ⟨"db.query", .timer, [], none, none⟩
    (maxExpectedTimer "db" longest).toFilter.configure id .none
      = pure { maximum := some (.ofNat 18446744073709551616000000000) } ∧
    (∀ s, (Rule.build (.minExpected most) s).1.toFilter.configure id .none
      = pure { minimum := some (.ofNat 18446744073709551615000000) }) ∧
    Binary64.le before.toBound longest.toBound = true ∧
    Binary64.IsInteger (2 ^ 53) exact.toBound ∧ before.toBound ≠ exact.toBound := by
  intro longest most exact before id
  obtain ⟨filters, rules, mono, integer, injective⟩ := timerBounds_nearest
  have timer : id.type = .timer := rfl
  have named : id.nameStartsWith "db" = true := by decide
  refine ⟨?_, fun s => ?_, mono before longest (.inl (by decide)), ?_, ?_⟩
  · have rounded : longest.toBound = .ofNat 18446744073709551616000000000 := by decide +kernel
    rw [← rounded]
    exact ((filters "db" longest).2 id .none timer named).1
  · obtain ⟨bound, nearest, laid⟩ := rules most 18446744073709551615 rfl rfl
    have converted : bound = .ofNat 18446744073709551615000000 := by
      rw [← Binary64.ofInt_natCast]
      exact ((nearest _).1 ((Binary64.isNearest_iff (by decide) _).2 rfl)).symm
    rw [← converted]
    exact (laid s id .none timer named).2
  · have whole := integer exact (by decide)
    have count : exact.secs.toNat * 10 ^ 9 + exact.nanos = 2 ^ 53 := by decide
    rwa [count] at whole
  · intro same
    have equal := injective before exact (by decide) (by decide) same
    exact absurd (congrArg Duration.nanos equal) (by decide)

end MeterGate
