import CondExpr.Instant.Reader
import CondExpr.Instant.Text
import CondExpr.Proofs.Calendar
import CondExpr.Proofs.Numeral
import CondExpr.Proofs.Results

/-! # Written instants are read back

  The reader takes the stored form apart just where the writer put it
  together: each number is a run of digits of known width, or ends at the
  character behind it. The parts give the instant back, since a day is told
  by its number, and second 60 by the fraction of the second before. Only a
  leap second that does not end a minute is not given back: nothing tells it
  from the ordinary second after it.
-/

namespace CondExpr

/-! ## Section 1: Padded numbers -/

theorem allDigits_padded (width n : Nat) : AllDigits (padded width n) :=
  (allDigits_zeros _).append (allDigits_toDigits n)

theorem padded_ne_nil (width n : Nat) : padded width n ≠ [] :=
  List.append_ne_nil_of_right_ne_nil _ Nat.toDigits_ne_nil

@[simp] theorem digitsValue_padded (width n : Nat) : digitsValue (padded width n) = n := by
  unfold padded
  rw [digitsValue_zeros_append, digitsValue_toDigits]

theorem length_padded {width n : Nat} (hwidth : 0 < width) (hlt : n < 10 ^ width) :
    (padded width n).length = width := by
  have hlen : (Nat.toDigits 10 n).length ≤ width :=
    (Nat.length_toDigits_le_iff (by decide) hwidth).mpr hlt
  unfold padded
  rw [List.length_append, List.length_replicate]
  omega

theorem isBlank_of_isDigit {c : Char} (h : c.isDigit = true) : isBlank c = false := by
  have hall : ∀ n < 58, 48 ≤ n → blankCodes.contains n = false := by decide
  obtain ⟨hlower, hupper⟩ := toNat_of_isDigit h
  exact hall c.toNat (by omega) hlower

theorem dropBlanks_cons {c : Char} {rest : List Char} (h : isBlank c = false) :
    dropBlanks (c :: rest) = c :: rest :=
  List.dropWhile_cons_of_neg (by rw [h]; exact Bool.false_ne_true)

theorem dropBlanks_run {run rest : List Char} (hrun : AllDigits run) (hne : run ≠ []) :
    dropBlanks (run ++ rest) = run ++ rest := by
  obtain ⟨first, others, rfl⟩ := List.exists_cons_of_ne_nil hne
  exact dropBlanks_cons (isBlank_of_isDigit (hrun first List.mem_cons_self))

namespace Instant

/-! ## Section 2: Parts of the text -/

/-- A run of digits is read when it has the greatest width or ends at what
    comes behind it. -/
theorem readDigits_run {most : Nat} {run : List Char} (rest : List Char) (hrun : AllDigits run)
    (hne : run ≠ []) (hle : run.length ≤ most)
    (hend : run.length = most ∨ Stops Char.isDigit rest) :
    readDigits most (run ++ rest) = .ok (digitsValue run, rest) := by
  have hstops : Stops Char.isDigit (rest.take (most - run.length)) := by
    rcases hend with hfull | hstops
    · rw [hfull, Nat.sub_self, List.take_zero]
      exact stops_nil
    · intro c hc
      rw [List.head?_take] at hc
      split at hc
      · cases hc
      · exact hstops c hc
  have htaken : ((run ++ rest).take most).takeWhile Char.isDigit = run := by
    rw [List.take_append, List.take_of_length_le hle]
    exact takeWhile_run hrun hstops
  obtain ⟨first, others, hcons⟩ := List.exists_cons_of_ne_nil hne
  have hfirst : first.isDigit = true := hrun first (hcons ▸ List.mem_cons_self)
  unfold readDigits
  rw [hcons, List.cons_append]
  simp only [hfirst, if_true]
  rw [← List.cons_append, ← hcons, htaken, List.drop_left]

theorem readNumber_padded {least greatest n : Nat} (hleast : least ≤ n) (hgreatest : n ≤ greatest)
    (hlt : n < 100) (rest : List Char) :
    readNumber least greatest (padded 2 n ++ rest) = .ok (n, rest) := by
  have hlen : (padded 2 n).length = 2 := length_padded (by decide) hlt
  unfold readNumber
  rw [dropBlanks_run (allDigits_padded 2 n) (padded_ne_nil 2 n),
    readDigits_run rest (allDigits_padded 2 n) (padded_ne_nil 2 n) (Nat.le_of_eq hlen)
      (Or.inl hlen)]
  simp only [ok_bind, digitsValue_padded, hleast, hgreatest, and_self, if_true]

/-- A signed number of any width is read up to a character that is no
    digit. -/
theorem readDigits_padded (n : Nat) {rest : List Char} (hrest : Stops Char.isDigit rest) :
    readDigits (padded 4 n ++ rest).length (padded 4 n ++ rest) = .ok (n, rest) := by
  have hle : (padded 4 n).length ≤ (padded 4 n ++ rest).length := by
    rw [List.length_append]
    omega
  rw [readDigits_run rest (allDigits_padded 4 n) (padded_ne_nil 4 n) hle (Or.inr hrest),
    digitsValue_padded]

/-- A year is read up to a character that is no digit. -/
theorem readYear_yearDigits {year : Int} (hlower : -(twoPow 31 : Int) ≤ year)
    (hupper : year < (twoPow 31 : Int)) {rest : List Char} (hrest : Stops Char.isDigit rest) :
    readYear (yearDigits year ++ rest) = .ok (year, rest) := by
  have hsigned := readDigits_padded year.natAbs hrest
  unfold yearDigits readYear
  -- Four digits without a sign are not followed further; behind a sign the
  -- number goes on to the mark.
  by_cases hshort : 0 ≤ year ∧ year ≤ 9999
  · have hlen : (padded 4 year.toNat).length = 4 := length_padded (by decide) (by omega)
    have hread := readDigits_run rest (allDigits_padded 4 year.toNat) (padded_ne_nil 4 _)
      (Nat.le_of_eq hlen) (Or.inl hlen)
    have hyear : (year.toNat : Int) = year := by omega
    obtain ⟨first, others, hcons⟩ := List.exists_cons_of_ne_nil (padded_ne_nil 4 year.toNat)
    have hfirst : first.isDigit = true :=
      allDigits_padded 4 year.toNat first (hcons ▸ List.mem_cons_self)
    rw [digitsValue_padded] at hread
    simp only [if_pos hshort, dropBlanks_run (allDigits_padded 4 _) (padded_ne_nil 4 _)]
    split
    · rename_i digits heq
      rw [hcons] at heq
      obtain ⟨rfl, -⟩ := List.cons.inj heq
      cases hfirst
    · rename_i digits heq
      rw [hcons] at heq
      obtain ⟨rfl, -⟩ := List.cons.inj heq
      cases hfirst
    · simp only [hread]
      rw [ok_bind, pure_bind, hyear]
      exact if_pos ⟨hlower, hupper⟩
  · by_cases hneg : year < 0
    · have hyear : -(year.natAbs : Int) = year := by omega
      have hblank : isBlank '-' = false := by decide
      simp only [if_neg hshort, if_pos hneg, List.cons_append, dropBlanks_cons hblank, hsigned]
      rw [ok_bind, pure_bind, hyear]
      exact if_pos ⟨hlower, hupper⟩
    · have hyear : (year.natAbs : Int) = year := by omega
      have hblank : isBlank '+' = false := by decide
      simp only [if_neg hshort, if_neg hneg, List.cons_append, dropBlanks_cons hblank, hsigned]
      rw [ok_bind, pure_bind, hyear]
      exact if_pos ⟨hlower, hupper⟩

section Fraction

variable {rest : List Char}

/-- Whatever the width, the missing places are made up for by the scale. -/
theorem readFraction_padded {width n : Nat} (hwidth : 0 < width) (hmost : width ≤ 9)
    (hn : n < 10 ^ width) (hrest : Stops Char.isDigit rest) :
    readFraction ('.' :: padded width n ++ rest) = .ok (n * tenPow (9 - width), rest) := by
  have hlen : (padded width n).length = width := length_padded hwidth hn
  have hread := readDigits_run rest (allDigits_padded width n) (padded_ne_nil width n)
    (hlen.trans_le hmost) (Or.inr hrest)
  have htaken : (padded width n ++ rest).length - rest.length = width := by
    rw [List.length_append, hlen, Nat.add_sub_cancel]
  have hdropped : rest.dropWhile Char.isDigit = rest := by
    cases rest with
    | nil => rfl
    | cons c rest =>
      exact List.dropWhile_cons_of_neg (by rw [stops_cons.mp hrest]; exact Bool.false_ne_true)
  show readFraction ('.' :: (padded width n ++ rest)) = .ok (n * tenPow (9 - width), rest)
  unfold readFraction
  simp only [hread, ok_bind, htaken, hdropped, digitsValue_padded]

/-- The decimals of a second are read as the nanoseconds they are. -/
theorem readFraction_fractionDigits {nanos : Nat} (hlt : nanos < 1000000000)
    (hrest : Stops (fun c => c.isDigit || c = '.') rest) :
    readFraction (fractionDigits nanos ++ rest) = .ok (nanos, rest) := by
  have hdigits : Stops Char.isDigit rest := by
    intro c hc
    exact (Bool.or_eq_false_iff.mp (hrest c hc)).1
  unfold fractionDigits
  split
  · rename_i hzero
    rw [hzero, List.nil_append]
    unfold readFraction
    split
    · cases hrest _ rfl
    · rfl
  · split
    · rename_i hmillis
      have hexact : nanos / 1000000 * tenPow (9 - 3) = nanos :=
        Nat.div_mul_cancel (Nat.dvd_of_mod_eq_zero hmillis)
      rw [readFraction_padded (by decide) (by decide) (by omega) hdigits, hexact]
    · split
      · rename_i hmicros
        have hexact : nanos / 1000 * tenPow (9 - 6) = nanos :=
          Nat.div_mul_cancel (Nat.dvd_of_mod_eq_zero hmicros)
        rw [readFraction_padded (by decide) (by decide) (by omega) hdigits, hexact]
      · have hexact : nanos * tenPow (9 - 9) = nanos := Nat.mul_one nanos
        rw [readFraction_padded (by decide) (by decide) hlt hdigits, hexact]

end Fraction

/-! ## Section 3: Leap seconds -/

/-- A leap second follows the last second of a minute, as clocks have it. -/
def LeapAtMinuteEnd (t : Instant) : Prop := t.isLeap = true → t.seconds % 60 = 59

instance (t : Instant) : Decidable t.LeapAtMinuteEnd := inferInstanceAs (Decidable (_ → _))

theorem not_leapAtMinuteEnd_iff {t : Instant} :
    ¬ t.LeapAtMinuteEnd ↔ 1000000000 ≤ t.nanos ∧ t.seconds % 60 ≠ 59 := by
  unfold LeapAtMinuteEnd isLeap
  rw [decide_eq_true_iff, Classical.not_imp]

/-- The instant that the written forms show. A leap second that does not end
    a minute looks like the next second, which is an ordinary one. -/
def asShown (t : Instant) : Instant :=
  if h : t.LeapAtMinuteEnd then t
  else
    { seconds := t.seconds + 1
      nanos := t.nanos - 1000000000
      nanos_lt := Nat.lt_of_le_of_lt (Nat.sub_le _ _) t.nanos_lt
      seconds_ge := by have hlower := t.seconds_ge; omega
      seconds_le := by
        -- The last second of all ends a minute.
        have hupper := t.seconds_le
        have hmiddle := (not_leapAtMinuteEnd_iff.mp h).2
        omega }

theorem LeapAtMinuteEnd.asShown_eq {t : Instant} (hend : t.LeapAtMinuteEnd) : t.asShown = t :=
  dif_pos hend

section Shown

variable (t : Instant)

/-- Only in the middle of a minute is another instant shown, and then one
    whole second goes over from the fraction. -/
theorem asShown_cases : (t.LeapAtMinuteEnd ∧ t.asShown = t) ∨ (t.seconds % 60 ≠ 59 ∧
    t.asShown.seconds = t.seconds + 1 ∧ t.nanos = t.asShown.nanos + 1000000000) := by
  by_cases hend : t.LeapAtMinuteEnd
  · exact .inl ⟨hend, hend.asShown_eq⟩
  · obtain ⟨hle, hmiddle⟩ := not_leapAtMinuteEnd_iff.mp hend
    refine .inr ⟨hmiddle, ?_⟩
    unfold asShown
    rw [dif_neg hend]
    exact ⟨rfl, (Nat.sub_add_cancel hle).symm⟩

theorem asShown_eq_self_iff : t.asShown = t ↔ t.LeapAtMinuteEnd := by
  rcases t.asShown_cases with ⟨hend, hsame⟩ | ⟨hmiddle, hseconds, hnanos⟩
  · exact iff_of_true hsame hend
  · refine iff_of_false ?_ (not_leapAtMinuteEnd_iff.mpr ⟨by omega, hmiddle⟩)
    intro hsame
    rw [hsame] at hseconds
    omega

/-- Leap seconds that are shown end a minute. -/
theorem leapAtMinuteEnd_asShown : t.asShown.LeapAtMinuteEnd := by
  rcases t.asShown_cases with ⟨hend, hsame⟩ | ⟨-, -, hnanos⟩
  · rw [hsame]
    exact hend
  · have hlt := t.nanos_lt
    intro hleap
    have hle : 1000000000 ≤ t.asShown.nanos := of_decide_eq_true hleap
    omega

@[simp] theorem date_asShown : t.asShown.date = t.date := by
  rcases t.asShown_cases with ⟨-, hsame⟩ | ⟨hmiddle, hseconds, -⟩
  · rw [hsame]
  · have hday : (t.seconds + 1) / 86400 = t.seconds / 86400 := by omega
    unfold date
    rw [hseconds, hday]

@[simp] theorem hour_asShown : t.asShown.hour = t.hour := by
  rcases t.asShown_cases with ⟨-, hsame⟩ | ⟨hmiddle, hseconds, -⟩
  · rw [hsame]
  · unfold hour secondOfDay
    rw [hseconds]
    omega

@[simp] theorem minute_asShown : t.asShown.minute = t.minute := by
  rcases t.asShown_cases with ⟨-, hsame⟩ | ⟨hmiddle, hseconds, -⟩
  · rw [hsame]
  · unfold minute secondOfDay
    rw [hseconds]
    omega

/-- The second that the leap second adds is then one of the clock. -/
@[simp] theorem second_asShown : t.asShown.second = t.second := by
  rcases t.asShown_cases with ⟨-, hsame⟩ | ⟨hmiddle, hseconds, hnanos⟩
  · rw [hsame]
  · have hlt := t.nanos_lt
    have hleap : t.isLeap = true := decide_eq_true (by omega)
    have hordinary : t.asShown.isLeap = false := decide_eq_false (by omega)
    unfold second secondOfDay
    rw [hleap, hordinary, hseconds, if_pos rfl, if_neg Bool.false_ne_true]
    omega

@[simp] theorem fraction_asShown : t.asShown.fraction = t.fraction := by
  rcases t.asShown_cases with ⟨-, hsame⟩ | ⟨-, -, hnanos⟩
  · rw [hsame]
  · unfold fraction
    rw [hnanos, Nat.add_mod_right]

/-- The written forms do not tell an instant from the one they show. -/
theorem stored_asShown : t.asShown.stored = t.stored := by
  unfold stored dayDigits clockDigits
  simp

theorem fixed_asShown : t.asShown.fixed = t.fixed := by
  unfold fixed dayDigits clockDigits
  simp

end Shown

/-! ## Section 4: The whole text -/

section Clock

variable (t : Instant)

theorem hour_lt : t.hour < 24 := by
  unfold hour secondOfDay
  omega

theorem minute_lt : t.minute < 60 := by
  unfold minute
  omega

theorem second_le : t.second ≤ 60 := by
  unfold second
  split <;> omega

theorem fraction_lt : t.fraction < 1000000000 := Nat.mod_lt _ (by decide)

/-- The clock reading as seconds of the day. In a leap second it is one
    more. -/
theorem clock_eq : t.hour * 3600 + t.minute * 60 + t.second =
    t.secondOfDay + (if t.isLeap then 1 else 0) := by
  unfold hour minute second
  omega

/-- Where leap seconds end a minute, they do so in their day too. -/
theorem LeapAtMinuteEnd.secondOfDay_mod {t : Instant} (hend : t.LeapAtMinuteEnd)
    (hleap : t.isLeap = true) : t.secondOfDay % 60 = 59 := by
  have hseconds := hend hleap
  unfold secondOfDay
  omega

/-- And second 60 is shown just inside a leap second. -/
theorem LeapAtMinuteEnd.second_eq_sixty_iff {t : Instant} (hend : t.LeapAtMinuteEnd) :
    t.second = 60 ↔ t.isLeap = true := by
  unfold second
  cases hleap : t.isLeap with
  | true =>
    rw [if_pos rfl, hend.secondOfDay_mod hleap]
    exact iff_of_true rfl rfl
  | false =>
    rw [if_neg Bool.false_ne_true]
    exact iff_of_false (by omega) Bool.false_ne_true

theorem nanos_eq : t.nanos = t.fraction + (if t.isLeap then 1000000000 else 0) := by
  have hlt := t.nanos_lt
  unfold fraction isLeap
  simp only [decide_eq_true_eq]
  split <;> omega

end Clock

/-- The years that instants cover. -/
theorem year_bounds (t : Instant) : -262143 ≤ t.date.year ∧ t.date.year ≤ 262142 := by
  have hlower := t.seconds_ge
  have hupper := t.seconds_le
  have hfirst : (CivilDate.ofDayNumber (-96465292)).year = -262143 := by decide
  have hlast : (CivilDate.ofDayNumber 95026236).year = 262142 := by decide
  constructor
  · rw [← hfirst]
    exact CivilDate.year_monotone (by omega)
  · rw [← hlast]
    exact CivilDate.year_monotone (by omega)

/-- An instant whose leap seconds end a minute is put together from its day
    and its clock reading. -/
theorem LeapAtMinuteEnd.ofParts_self {t : Instant} (hend : t.LeapAtMinuteEnd) :
    ofParts t.date t.hour t.minute t.second t.fraction 0 = .ok t := by
  obtain ⟨hvalid, hnumber⟩ := CivilDate.ofDayNumber_spec (t.seconds / 86400)
  obtain ⟨hleast, hgreatest⟩ := t.year_bounds
  have hclock := t.clock_eq
  have hsixty := hend.second_eq_sixty_iff
  have hnanos := t.nanos_eq
  have hdate : ¬ (¬ t.date.Valid ∨ t.date.year < -262143 ∨ 262142 < t.date.year) := by
    intro h
    rcases h with h | h
    · exact h hvalid
    · omega
  have hday : t.date.dayNumber = t.seconds / 86400 := hnumber
  have hofDay : (t.secondOfDay : Int) = t.seconds % 86400 := by
    unfold secondOfDay
    omega
  -- The second before a leap second, and the fraction counted from there.
  have hparts : (if t.second = 60 then (59, t.fraction + 1000000000) else (t.second, t.fraction)) =
      (t.secondOfDay - t.hour * 3600 - t.minute * 60, t.nanos) := by
    by_cases hleap : t.isLeap = true
    · have hsecond := hsixty.mpr hleap
      rw [if_pos hleap] at hclock hnanos
      rw [if_pos hsecond, hnanos]
      congr 1
      omega
    · have hsecond := fun h => hleap (hsixty.mp h)
      rw [if_neg hleap] at hclock hnanos
      rw [if_neg hsecond, hnanos]
      congr 1
      omega
  have hseconds : t.date.dayNumber * 86400 + t.hour * 3600 + t.minute * 60 +
      (t.secondOfDay - t.hour * 3600 - t.minute * 60 : Nat) - 0 = t.seconds := by
    have hle : t.hour * 3600 + t.minute * 60 ≤ t.secondOfDay := by
      unfold hour minute
      omega
    rw [hday]
    omega
  unfold ofParts
  rw [if_neg hdate, if_neg (by decide), hparts]
  dsimp only
  rw [hseconds]
  have hunix : ofUnix? t.seconds t.nanos = some t :=
    dif_pos ⟨t.nanos_lt, t.seconds_ge, t.seconds_le⟩
  rw [hunix]

theorem readMark_cons {mark : Char} (hblank : isBlank mark = false) (rest : List Char) :
    readMark mark (mark :: rest) = .ok ((), rest) := by
  unfold readMark
  rw [dropBlanks_cons hblank]
  exact if_pos rfl

/-- A written instant is read as its day, its clock reading and whatever its
    decimals are read as. -/
theorem read_written (t : Instant) {decimals : List Char} {nanos : Nat}
    (hdecimals : readFraction (decimals ++ ['Z']) = .ok (nanos, ['Z'])) :
    read (.ofList (t.dayDigits ++ 'T' :: t.clockDigits ++ decimals ++ ['Z'])) =
      ofParts t.date t.hour t.minute t.second nanos 0 := by
  have hvalid : t.date.Valid := (CivilDate.ofDayNumber_spec (t.seconds / 86400)).1
  obtain ⟨hmonth, hmonth', hday, hday'⟩ := hvalid
  obtain ⟨hleast, hgreatest⟩ := t.year_bounds
  have hhour := t.hour_lt
  have hminute := t.minute_lt
  have hsecond := t.second_le
  have hdays : t.date.day ≤ 31 := hday'.trans (CivilDate.daysInMonth_le _ _)
  have hpow : (twoPow 31 : Int) = 2147483648 := rfl
  have htext : t.dayDigits ++ 'T' :: t.clockDigits ++ decimals ++ ['Z'] =
      yearDigits t.date.year ++ ('-' :: (padded 2 t.date.month ++
        ('-' :: (padded 2 t.date.day ++ ('T' :: (padded 2 t.hour ++ (':' :: (padded 2 t.minute ++
          (':' :: (padded 2 t.second ++ (decimals ++ ['Z']))))))))))) := by
    simp [dayDigits, clockDigits]
  have hdivider (rest : List Char) : readDivider ('T' :: rest) = .ok ((), rest) := rfl
  have hoffset : readOffset (dropBlanks ['Z']) = .ok (0, []) := rfl
  have hdash := readMark_cons (show isBlank '-' = false by decide)
  have hcolon := readMark_cons (show isBlank ':' = false by decide)
  have hreadMonth := readNumber_padded hmonth hmonth' (by omega)
  have hreadDay := readNumber_padded hday hdays (by omega)
  have hreadHour := readNumber_padded (Nat.zero_le t.hour) (show t.hour ≤ 23 by omega) (by omega)
  have hreadMinute :=
    readNumber_padded (Nat.zero_le t.minute) (show t.minute ≤ 59 by omega) (by omega)
  have hreadSecond := readNumber_padded (Nat.zero_le t.second) hsecond (by omega)
  -- Every part ends at the mark behind it, and `Z` ends the decimals.
  unfold read
  rw [String.toList_ofList, htext, readYear_yearDigits (by omega) (by omega) (stops_cons.mpr rfl),
    ok_bind]
  simp only [hdash, hcolon, hdivider, hreadMonth, hreadDay, hreadHour, hreadMinute, hreadSecond,
    hdecimals, hoffset, ok_bind]
  rfl

theorem LeapAtMinuteEnd.read_stored {t : Instant} (hend : t.LeapAtMinuteEnd) :
    read t.stored = .ok t := by
  have hdecimals : readFraction (fractionDigits t.fraction ++ ['Z']) = .ok (t.fraction, ['Z']) :=
    readFraction_fractionDigits t.fraction_lt (stops_cons.mpr rfl)
  unfold stored
  rw [t.read_written hdecimals, hend.ofParts_self]

/-- The stored form is read as the instant that it shows. -/
theorem read_stored (t : Instant) : read t.stored = .ok t.asShown := by
  rw [← t.stored_asShown]
  exact t.leapAtMinuteEnd_asShown.read_stored

end Instant
end CondExpr
