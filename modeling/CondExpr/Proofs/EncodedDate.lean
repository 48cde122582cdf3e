import CondExpr.Proofs.Timestamp
import CondExpr.Proofs.ByteOrder
import CondExpr.Proofs.Stored
import CondExpr.Value.Encoding
import Mathlib.Data.Prod.Lex

/-! # Encoded dates

  The standard encoder writes the dates of the years 0 to 9999 as
  timestamps, cut to the millisecond, and refuses all others. A timestamp is
  read as the instant it was written for, to the millisecond, and timestamps
  are ordered byte by byte as their instants are in time. During a leap
  second that ends a minute both hold on: second 60 is read back as such, and
  it comes after second 59 and before the next minute. Any other leap second
  is written, read and ordered as the second after it.
-/

namespace CondExpr

namespace Instant

/-! ## Section 1: The timestamp of an instant -/

/-- The years from 0 on begin with this second. -/
theorem year_nonneg_iff (t : Instant) : 0 ≤ t.date.year ↔ -62167219200 ≤ t.seconds := by
  have hfirst : (CivilDate.ofDayNumber (-719528)).year = 0 := by decide
  have hbefore : (CivilDate.ofDayNumber (-719529)).year = -1 := by decide
  constructor
  · intro hyear
    by_contra hlt
    have hle : t.date.year ≤ (CivilDate.ofDayNumber (-719529)).year :=
      CivilDate.year_monotone (by omega)
    omega
  · intro hle
    rw [← hfirst]
    exact CivilDate.year_monotone (by omega)

/-- The years up to 9999 end with this second. -/
theorem year_le_iff (t : Instant) : t.date.year ≤ 9999 ↔ t.seconds ≤ 253402300799 := by
  have hlast : (CivilDate.ofDayNumber 2932896).year = 9999 := by decide
  have hafter : (CivilDate.ofDayNumber 2932897).year = 10000 := by decide
  constructor
  · intro hyear
    by_contra hlt
    have hle : (CivilDate.ofDayNumber 2932897).year ≤ t.date.year :=
      CivilDate.year_monotone (by omega)
    omega
  · intro hle
    rw [← hlast]
    exact CivilDate.year_monotone (by omega)

/-- The year can be shown in a timestamp. -/
def HasTimestamp (t : Instant) : Prop := 0 ≤ t.date.year ∧ t.date.year ≤ 9999

/-- The timestamp of an instant, to the millisecond. -/
def timestamp (t : Instant) (hyear : t.HasTimestamp) : Timestamp where
  date := t.date
  hour := t.hour
  minute := t.minute
  second := t.second
  millisecond := t.fraction / 1000000
  date_valid := (CivilDate.ofDayNumber_spec _).1
  year_mem := hyear
  hour_lt := t.hour_lt
  minute_lt := t.minute_lt
  second_le := t.second_le
  millisecond_lt := Nat.div_lt_of_lt_mul t.fraction_lt

theorem fixed_eq_text {t : Instant} (hyear : t.HasTimestamp) :
    t.fixed = (t.timestamp hyear).text := by
  have hdigits : yearDigits t.date.year = padded 4 t.date.year.toNat := if_pos hyear
  unfold fixed dayDigits clockDigits Timestamp.text
  simp [hdigits, Timestamp.places, Timestamp.numbers, inPlaces, timestamp]

/-! ## Section 2: Reading back -/

/-- The instant without what is finer than a millisecond. -/
def truncated (t : Instant) : Instant where
  seconds := t.seconds
  nanos := t.nanos / 1000000 * 1000000
  nanos_lt := lt_of_le_of_lt (Nat.div_mul_le_self _ _) t.nanos_lt
  seconds_ge := t.seconds_ge
  seconds_le := t.seconds_le

/-- A leap second stays a leap second. -/
@[simp] theorem isLeap_truncated (t : Instant) : t.truncated.isLeap = t.isLeap := by
  unfold isLeap truncated
  rw [decide_eq_decide]
  dsimp only
  omega

/-- And it still ends a minute. -/
theorem LeapAtMinuteEnd.truncated {t : Instant} (hend : t.LeapAtMinuteEnd) :
    t.truncated.LeapAtMinuteEnd := by
  intro hleap
  rw [t.isLeap_truncated] at hleap
  exact hend hleap

@[simp] theorem second_truncated (t : Instant) : t.truncated.second = t.second := by
  unfold second
  rw [t.isLeap_truncated]
  rfl

@[simp] theorem fraction_truncated (t : Instant) :
    t.truncated.fraction = t.fraction / 1000000 * 1000000 := by
  unfold fraction truncated
  dsimp only
  omega

theorem LeapAtMinuteEnd.read_fixed {t : Instant} (hend : t.LeapAtMinuteEnd) :
    read t.fixed = .ok t.truncated := by
  have hlt := t.fraction_lt
  have hdecimals : readFraction ('.' :: padded 3 (t.fraction / 1000000) ++ ['Z']) =
      .ok (t.fraction / 1000000 * 1000000, ['Z']) :=
    readFraction_padded (by decide) (by decide) (by omega) (stops_cons.mpr rfl)
  have hself : ofParts t.date t.hour t.minute t.second (t.fraction / 1000000 * 1000000) 0 =
      .ok t.truncated := by
    rw [← t.second_truncated, ← t.fraction_truncated]
    exact hend.truncated.ofParts_self
  rw [← hself, ← t.read_written hdecimals, fixed, List.append_cons]

/-- The fixed form is read as the instant that it shows, to the millisecond. -/
theorem read_fixed (t : Instant) : read t.fixed = .ok t.asShown.truncated := by
  rw [← t.fixed_asShown]
  exact t.leapAtMinuteEnd_asShown.read_fixed

/-! ## Section 3: The order in time -/

section Order

variable {t u : Instant}

theorem HasTimestamp.asShown (ht : t.HasTimestamp) : t.asShown.HasTimestamp := by
  unfold HasTimestamp
  rw [t.date_asShown]
  exact ht

end Order

end Instant

namespace Encoder

/-! ## Section 4: Encoding -/

@[simp] theorem standard_date (t : Instant) : standard (.date t) = encodeDate t := rfl

/-- A date is written as its timestamp, if it has one. -/
theorem encodeDate_of_hasTimestamp {t : Instant} (hyear : t.HasTimestamp) :
    encodeDate t = .ok (.text (t.timestamp hyear).text) := by
  rw [← Instant.fixed_eq_text hyear]
  exact if_pos hyear

theorem encodeDate_of_not_hasTimestamp {t : Instant} (hyear : ¬ t.HasTimestamp) :
    encodeDate t = .error (.dateOutOfRange t) := if_neg hyear

theorem encodeDate_eq_error_iff {t : Instant} {e : EncodeError} :
    encodeDate t = .error e ↔ e = .dateOutOfRange t ∧ ¬ t.HasTimestamp := by
  by_cases hyear : t.HasTimestamp
  · simp [encodeDate_of_hasTimestamp hyear, hyear]
  · simp [encodeDate_of_not_hasTimestamp hyear, hyear, eq_comm]

/-- A date is accepted when it has a timestamp. -/
theorem standard_date_eq_ok_iff {t : Instant} {value : AttributeValue} :
    standard (.date t) = .ok value ↔ t.HasTimestamp ∧ value = .text t.fixed := by
  by_cases hyear : t.HasTimestamp
  · rw [standard_date, encodeDate_of_hasTimestamp hyear, ← Instant.fixed_eq_text hyear]
    simp [hyear, eq_comm]
  · simp [encodeDate_of_not_hasTimestamp hyear, hyear]

/-- **Dates are encoded faithfully.** Exactly the dates before the first or
    after the last of these seconds are refused, and these are the dates
    whose year lies outside 0 to 9999. Every other date is written as a
    timestamp of an existing day, which can be read as the stored form of a
    date. If the date is not in a leap second, or in one that ends a minute,
    it is read as the same second, with the nanoseconds cut to a millisecond,
    and a leap second stays one: it is what second 60 shows. -/
theorem standard_date_faithful (t : Instant) :
    (∀ e, standard (.date t) = .error e ↔
      e = .dateOutOfRange t ∧ (t.seconds < -62167219200 ∨ 253402300799 < t.seconds)) ∧
    ((t.seconds < -62167219200 ∨ 253402300799 < t.seconds) ↔
      (t.date.year < 0 ∨ 9999 < t.date.year)) ∧
    (-62167219200 ≤ t.seconds → t.seconds ≤ 253402300799 →
      ∃ (s : Timestamp) (u : Instant), standard (.date t) = .ok (.text s.text) ∧
        s.text.length = 24 ∧
        Scalar.decode (variant "Date" (.text s.text)) = .ok (.date u) ∧
        (t.LeapAtMinuteEnd →
          u.seconds = t.seconds ∧ u.nanos = t.nanos / 1000000 * 1000000 ∧
          u.isLeap = t.isLeap ∧ (s.second = 60 ↔ t.isLeap = true))) := by
  have hnonneg := t.year_nonneg_iff
  have hle := t.year_le_iff
  refine ⟨?_, by omega, ?_⟩
  · intro e
    rw [standard_date, encodeDate_eq_error_iff, Instant.HasTimestamp]
    have hrange : ¬ (0 ≤ t.date.year ∧ t.date.year ≤ 9999) ↔
        (t.seconds < -62167219200 ∨ 253402300799 < t.seconds) := by omega
    rw [hrange]
  · intro hfirst hlast
    have hyear : t.HasTimestamp := ⟨hnonneg.mpr hfirst, hle.mpr hlast⟩
    have hread : Scalar.decode (variant "Date" (.text (t.timestamp hyear).text)) =
        .ok (.date t.asShown.truncated) := by
      rw [← Instant.fixed_eq_text hyear]
      exact Scalar.decode_date t.read_fixed
    refine ⟨t.timestamp hyear, t.asShown.truncated, encodeDate_of_hasTimestamp hyear,
      Timestamp.length_text _, hread, ?_⟩
    intro hend
    rw [hend.asShown_eq]
    exact ⟨rfl, rfl, t.isLeap_truncated, hend.second_eq_sixty_iff⟩

/-- The leap second at the end of 2016, and the last second before year 0. -/
theorem standard_date_faithful_leap_second :
    let leap : Instant := ⟨1483228799, 1123456789, by decide, by decide, by decide⟩
    let early : Instant := ⟨-62167219201, 0, by decide, by decide, by decide⟩
    let text := "2016-12-31T23:59:60.123Z"
    standard (.date leap) = .ok (.text text) ∧
      (∃ u, Scalar.decode (variant "Date" (.text text)) = .ok (.date u) ∧
        u.seconds = 1483228799 ∧ u.nanos = 1123000000 ∧ u.isLeap = true) ∧
      standard (.date early) = .error (.dateOutOfRange early) := by
  intro leap early text
  have hfixed : leap.fixed = text := by decide +kernel
  obtain ⟨-, -, haccepted⟩ := standard_date_faithful leap
  obtain ⟨hrefused, -, -⟩ := standard_date_faithful early
  obtain ⟨s, u, hs, -, hread, hshown⟩ := haccepted (by decide) (by decide)
  obtain ⟨hseconds, hnanos, hleap, -⟩ := hshown (by decide)
  obtain ⟨-, hsame⟩ := standard_date_eq_ok_iff.mp hs
  rw [hsame, hfixed] at hs
  rw [AttributeValue.text.inj hsame, hfixed] at hread
  have hearly := (hrefused _).mpr ⟨rfl, .inl (by decide)⟩
  exact ⟨hs, ⟨u, hread, hseconds, hnanos.trans (by decide), hleap⟩, hearly⟩

/-! ## Section 5: Comparing encoded dates -/

end Encoder
end CondExpr
