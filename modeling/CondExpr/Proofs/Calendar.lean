import CondExpr.Instant.Calendar
import Mathlib.Order.Monotone.Basic

/-! # The calendar and its day numbers

  Every day number is the number of one existing day. Within a cycle of 400
  years the year of a day is found by a division after a correction for the
  leap days. The corrected number does not decrease from one day to the
  next, so the year is right for all days of a year as soon as it is right
  for the first and the last.

  The day of the next number is the next day of the calendar. By induction
  numbers and days go up together.
-/

namespace CondExpr.CivilDate

/-! ## Section 1: The years of a cycle -/

/-- How many days of a cycle come before a year of it. Years begin in
    March. -/
def yearStart (year : Nat) : Nat := 365 * year + year / 4 - year / 100 + year / 400

/-- The year that a day of a cycle belongs to. -/
def yearOfDay (day : Nat) : Nat := (day - day / 1460 + day / 36524 - day / 146096) / 365

theorem yearOfDay_monotone : Monotone yearOfDay := by
  apply monotone_nat_of_le_succ
  intro day
  unfold yearOfDay
  apply Nat.div_le_div_right
  omega

/-- The first and the last day of every year. -/
theorem yearOfDay_ends : ∀ year < 400,
    yearOfDay (yearStart year) = year ∧ yearOfDay (yearStart (year + 1) - 1) = year := by
  decide +kernel

/-- A day of a cycle lies in its year. -/
theorem yearOfDay_spec {day : Nat} (hlt : day < 146097) :
    yearOfDay day < 400 ∧ yearStart (yearOfDay day) ≤ day ∧
      day < yearStart (yearOfDay day + 1) := by
  have hlast : yearOfDay day < 400 := by
    have hle : yearOfDay day ≤ yearOfDay 146096 := yearOfDay_monotone (by omega)
    have hvalue : yearOfDay 146096 = 399 := by decide
    omega
  refine ⟨hlast, ?_, ?_⟩
  · -- A day before the first of its year would belong to the year before.
    by_contra hbefore
    obtain ⟨year, hyear⟩ : ∃ year, yearOfDay day = year + 1 := by
      refine ⟨yearOfDay day - 1, ?_⟩
      have hpos : yearOfDay day ≠ 0 := by
        intro hzero
        rw [hzero] at hbefore
        exact hbefore (Nat.zero_le day)
      omega
    rw [hyear] at hbefore
    have hle : yearOfDay day ≤ yearOfDay (yearStart (year + 1) - 1) :=
      yearOfDay_monotone (by omega)
    rw [(yearOfDay_ends year (by omega)).2] at hle
    omega
  · -- A day after the last of its year would belong to the year after.
    by_contra hafter
    rcases Nat.lt_or_ge (yearOfDay day + 1) 400 with hnext | hend
    · have hle : yearOfDay (yearStart (yearOfDay day + 1)) ≤ yearOfDay day :=
        yearOfDay_monotone (by omega)
      rw [(yearOfDay_ends _ hnext).1] at hle
      omega
    · have hfull : yearOfDay day + 1 = 400 := by omega
      have hcycle : yearStart 400 = 146097 := by decide
      rw [hfull, hcycle] at hafter
      exact hafter hlt

/-- Between the first days of two years of a cycle lie the days of the
    first. -/
theorem yearOfDay_eq {year day : Nat} (hyear : year < 400) (hstart : yearStart year ≤ day)
    (hend : day < yearStart (year + 1)) : yearOfDay day = year := by
  obtain ⟨hfirst, hlast⟩ := yearOfDay_ends year hyear
  have hle : yearOfDay (yearStart year) ≤ yearOfDay day := yearOfDay_monotone hstart
  have hge : yearOfDay day ≤ yearOfDay (yearStart (year + 1) - 1) :=
    yearOfDay_monotone (by omega)
  omega

/-! ## Section 2: The days of a year -/

/-- A year that begins in March has 366 days when the next year is a leap
    year. -/
theorem yearStart_succ : ∀ year < 400, yearStart (year + 1) =
    yearStart year + 365 + (if isLeapYear ((year : Int) + 1) then 1 else 0) := by
  decide +kernel

/-- No year has more than 366 days. -/
theorem dayOfYear_lt {day : Nat} (hlt : day < 146097) :
    day - yearStart (yearOfDay day) < 366 := by
  obtain ⟨hyear, hstart, hend⟩ := yearOfDay_spec hlt
  rw [yearStart_succ _ hyear] at hend
  split at hend <;> omega

/-- Leap years repeat with the cycle. -/
theorem isLeapYear_add_cycles (year cycles : Int) :
    isLeapYear (year + cycles * 400) = isLeapYear year := by
  have hfour : (year + cycles * 400) % 4 = year % 4 := by omega
  have hhundred : (year + cycles * 400) % 100 = year % 100 := by omega
  have hcycle : (year + cycles * 400) % 400 = year % 400 := by omega
  unfold isLeapYear
  rw [hfour, hhundred, hcycle]

/-- How many months after March a day of a year lies. Years begin in March. -/
def monthsFromMarch (day : Nat) : Nat := (5 * day + 2) / 153

/-- The month that lies a number of months after March. -/
def monthAfterMarch (count : Nat) : Nat := if count < 10 then count + 3 else count - 9

/-- The day of the month of a day of a year. -/
def dayOfMonth (day : Nat) : Nat := day - (153 * monthsFromMarch day + 2) / 5 + 1

theorem monthAfterMarch_spec : ∀ count < 12, 1 ≤ monthAfterMarch count ∧
    monthAfterMarch count ≤ 12 ∧ (monthAfterMarch count + 9) % 12 = count := by
  decide

theorem monthsFromMarch_lt {day : Nat} (hlt : day < 366) : monthsFromMarch day < 12 := by
  unfold monthsFromMarch
  omega

/-- The months and days of a year. The last day is the leap day. -/
theorem dayOfMonth_spec : ∀ day < 366,
    (153 * monthsFromMarch day + 2) / 5 + dayOfMonth day = day + 1 ∧
      dayOfMonth day ≤ daysInMonth 0 (monthAfterMarch (monthsFromMarch day)) ∧
      (monthAfterMarch (monthsFromMarch day) = 2 → dayOfMonth day = 29 → day = 365) := by
  decide +kernel

/-! ## Section 3: Days and their numbers -/

/-- Only February depends on the year. -/
theorem daysInMonth_eq_of_ne_two {month : Nat} (hmonth : month ≠ 2) (year year' : Int) :
    daysInMonth year month = daysInMonth year' month := by
  unfold daysInMonth
  split
  · exact absurd rfl hmonth
  all_goals rfl

/-- A month has the days it has in a leap year, but for the leap day. -/
theorem le_daysInMonth {year : Int} {month day : Nat} (hday : day ≤ daysInMonth 0 month)
    (hleap : month = 2 → day = 29 → isLeapYear year = true) : day ≤ daysInMonth year month := by
  by_cases hmonth : month = 2
  · subst hmonth
    have hmost : day ≤ 29 := hday
    unfold daysInMonth
    by_cases hlast : day = 29
    · rw [if_pos (hleap rfl hlast)]
      exact hmost
    · show day ≤ if isLeapYear year = true then 29 else 28
      split <;> omega
  · rw [daysInMonth_eq_of_ne_two hmonth year 0]
    exact hday

theorem daysInMonth_le (year : Int) (month : Nat) : daysInMonth year month ≤ 31 := by
  unfold daysInMonth
  split
  · split <;> decide
  all_goals decide

section Number

variable {cycle : Int} {year day : Nat}

/-- The date of a day of a year of a cycle. -/
def ofParts (cycle : Int) (year day : Nat) : CivilDate :=
  let month := monthAfterMarch (monthsFromMarch day)
  { year := year + cycle * 400 + (if month ≤ 2 then 1 else 0)
    month
    day := dayOfMonth day }

/-- Which February it is depends on the year that begins in it. -/
theorem isLeapYear_ofParts (hmonth : monthAfterMarch (monthsFromMarch day) = 2) :
    isLeapYear (ofParts cycle year day).year = isLeapYear ((year : Int) + 1) := by
  have hwinter : monthAfterMarch (monthsFromMarch day) ≤ 2 := Nat.le_of_eq hmonth
  have hsum : (ofParts cycle year day).year = (year : Int) + 1 + cycle * 400 := by
    unfold ofParts
    simp only [if_pos hwinter]
    omega
  rw [hsum, isLeapYear_add_cycles]

theorem ofParts_valid (hyear : year < 400) (hday : yearStart year + day < yearStart (year + 1)) :
    (ofParts cycle year day).Valid := by
  rw [yearStart_succ year hyear] at hday
  have hlt : day < 366 := by split at hday <;> omega
  obtain ⟨hfirst, hlast, -⟩ := monthAfterMarch_spec _ (monthsFromMarch_lt hlt)
  obtain ⟨-, hdays, hleapDay⟩ := dayOfMonth_spec day hlt
  refine ⟨hfirst, hlast, Nat.succ_pos _, le_daysInMonth hdays ?_⟩
  intro hmonth hday29
  have hleap : isLeapYear ((year : Int) + 1) = true := by
    by_contra hcommon
    rw [if_neg hcommon, hleapDay hmonth hday29] at hday
    omega
  rw [isLeapYear_ofParts hmonth]
  exact hleap

theorem dayNumber_ofParts (hyear : year < 400) (hday : day < 366) :
    (ofParts cycle year day).dayNumber =
      cycle * daysPerCycle + ((yearStart year + day : Nat) : Int) - epochOffset := by
  obtain ⟨hfirst, hlast, hmarch⟩ := monthAfterMarch_spec _ (monthsFromMarch_lt hday)
  obtain ⟨hsum, -, -⟩ := dayOfMonth_spec day hday
  have hmarchYear : (if (ofParts cycle year day).month ≤ 2 then (ofParts cycle year day).year - 1
      else (ofParts cycle year day).year) = year + cycle * 400 := by
    unfold ofParts
    dsimp only
    split <;> omega
  have hcycle : ((year : Int) + cycle * 400) / 400 = cycle := by omega
  have hrest : ((year : Int) + cycle * 400) % 400 = year := by omega
  have hmonth : ((ofParts cycle year day).month + 9) % 12 = monthsFromMarch day := hmarch
  have hdayOfMonth : (ofParts cycle year day).day = dayOfMonth day := rfl
  unfold dayNumber
  simp only [hmarchYear, hcycle, hrest, hmonth, hdayOfMonth]
  -- What is left is linear in the parts of the date.
  generalize dayOfMonth day = inMonth at *
  generalize monthsFromMarch day = months at *
  unfold yearStart
  omega

end Number

/-- The day with a number, by the parts of its cycle. -/
theorem ofDayNumber_eq (number : Int) {cycle : Int} {day : Nat} (hlt : day < 146097)
    (hnumber : number + epochOffset = cycle * daysPerCycle + day) :
    ofDayNumber number = ofParts cycle (yearOfDay day) (day - yearStart (yearOfDay day)) := by
  obtain ⟨hyear, -, -⟩ := yearOfDay_spec hlt
  have hcycle : (cycle * daysPerCycle + day) / daysPerCycle = cycle := by
    show (cycle * 146097 + day) / 146097 = cycle
    omega
  have hday : ((cycle * daysPerCycle + day) % daysPerCycle).toNat = day := by
    show ((cycle * 146097 + day) % 146097).toNat = day
    omega
  have hstart : 365 * yearOfDay day + yearOfDay day / 4 - yearOfDay day / 100 =
      yearStart (yearOfDay day) := by
    unfold yearStart
    omega
  unfold ofDayNumber
  simp only [hnumber, hcycle, hday]
  unfold ofParts monthAfterMarch monthsFromMarch dayOfMonth
  rw [← hstart]
  rfl

theorem exists_cycle (number : Int) : ∃ (cycle : Int) (day : Nat), day < 146097 ∧
    number + epochOffset = cycle * daysPerCycle + day := by
  refine ⟨(number + epochOffset) / 146097, ((number + epochOffset) % 146097).toNat, ?_, ?_⟩
  · omega
  · show number + epochOffset = _ * 146097 + _
    omega

/-- Every number is that of an existing day. -/
theorem ofDayNumber_spec (number : Int) :
    (ofDayNumber number).Valid ∧ (ofDayNumber number).dayNumber = number := by
  obtain ⟨cycle, day, hlt, hnumber⟩ := exists_cycle number
  obtain ⟨hyear, hstart, hend⟩ := yearOfDay_spec hlt
  have hsum : yearStart (yearOfDay day) + (day - yearStart (yearOfDay day)) = day := by omega
  rw [ofDayNumber_eq number hlt hnumber]
  constructor
  · apply ofParts_valid hyear
    rw [hsum]
    exact hend
  · rw [dayNumber_ofParts hyear (dayOfYear_lt hlt), hsum, ← hnumber, Int.add_sub_cancel]

/-! ## Section 4: From one day to the next -/

/-- The next day: in the same month, or the first of the next month, or of
    the next year. -/
def next (date : CivilDate) : CivilDate :=
  if date.day < daysInMonth date.year date.month then { date with day := date.day + 1 }
  else if date.month < 12 then ⟨date.year, date.month + 1, 1⟩
  else ⟨date.year + 1, 1, 1⟩

/-- One day comes before another: by year, then by month, then by day. -/
def Before (date other : CivilDate) : Prop :=
  date.year < other.year ∨ (date.year = other.year ∧
    (date.month < other.month ∨ (date.month = other.month ∧ date.day < other.day)))

theorem Before.trans {first second third : CivilDate} (h : first.Before second)
    (h' : second.Before third) : first.Before third := by
  unfold Before at *
  omega

instance : IsTrans CivilDate Before := ⟨fun _ _ _ => Before.trans⟩

section Steps

variable {date : CivilDate}

theorem next_of_day_lt (hday : date.day < daysInMonth date.year date.month) :
    date.next = ⟨date.year, date.month, date.day + 1⟩ := if_pos hday

theorem next_of_month_lt (hday : ¬ date.day < daysInMonth date.year date.month)
    (hmonth : date.month < 12) : date.next = ⟨date.year, date.month + 1, 1⟩ := by
  rw [next, if_neg hday, if_pos hmonth]

theorem next_of_december (hday : ¬ date.day < daysInMonth date.year date.month)
    (hmonth : ¬ date.month < 12) : date.next = ⟨date.year + 1, 1, 1⟩ := by
  rw [next, if_neg hday, if_neg hmonth]

end Steps

theorem before_next (date : CivilDate) : date.Before date.next := by
  by_cases hday : date.day < daysInMonth date.year date.month
  · rw [next_of_day_lt hday]
    exact .inr ⟨rfl, .inr ⟨rfl, Nat.lt_succ_self _⟩⟩
  · by_cases hmonth : date.month < 12
    · rw [next_of_month_lt hday hmonth]
      exact .inr ⟨rfl, .inl (Nat.lt_succ_self _)⟩
    · rw [next_of_december hday hmonth]
      exact .inl (Int.lt_succ _)

/-- The day after a day of a year that is neither its last nor 28 February
    is in the same month, unless that ends. -/
theorem dayOfMonth_succ : ∀ day < 364,
    (dayOfMonth day < daysInMonth 1 (monthAfterMarch (monthsFromMarch day)) ∧
      monthAfterMarch (monthsFromMarch (day + 1)) = monthAfterMarch (monthsFromMarch day) ∧
      dayOfMonth (day + 1) = dayOfMonth day + 1) ∨
    (monthAfterMarch (monthsFromMarch day) ≠ 2 ∧
      dayOfMonth day = daysInMonth 1 (monthAfterMarch (monthsFromMarch day)) ∧
      dayOfMonth (day + 1) = 1 ∧
      monthAfterMarch (monthsFromMarch (day + 1)) =
        if monthAfterMarch (monthsFromMarch day) < 12 then
          monthAfterMarch (monthsFromMarch day) + 1 else 1) := by
  decide +kernel

theorem daysInMonth_february (year : Int) :
    daysInMonth year 2 = if isLeapYear year then 29 else 28 := rfl

theorem daysInMonth_common_le (year : Int) (month : Nat) :
    daysInMonth 1 month ≤ daysInMonth year month := by
  by_cases hmonth : month = 2
  · rw [hmonth, daysInMonth_february year]
    show 28 ≤ _
    split <;> decide
  · rw [daysInMonth_eq_of_ne_two hmonth 1 year]

section Next

variable {cycle : Int} {year day : Nat}

theorem next_ofParts_of_lt (hday : day < 364) :
    (ofParts cycle year day).next = ofParts cycle year (day + 1) := by
  rcases dayOfMonth_succ day hday with ⟨hin, hmonth, hnext⟩ | ⟨hne, hlast, hfirst, hmonth⟩
  · rw [next_of_day_lt (hin.trans_le (daysInMonth_common_le _ _))]
    unfold ofParts
    rw [hmonth, hnext]
  · have hend : ¬ (ofParts cycle year day).day <
        daysInMonth (ofParts cycle year day).year (ofParts cycle year day).month := by
      show ¬ dayOfMonth day < daysInMonth _ (monthAfterMarch (monthsFromMarch day))
      rw [daysInMonth_eq_of_ne_two hne _ 1, hlast]
      exact Nat.lt_irrefl _
    -- The year of March goes on into the January after its December.
    by_cases hdecember : monthAfterMarch (monthsFromMarch day) < 12
    · rw [next_of_month_lt hend hdecember]
      rw [if_pos hdecember] at hmonth
      unfold ofParts
      rw [hmonth, hfirst]
      dsimp only
      congr 1
      split <;> split <;> omega
    · rw [next_of_december hend hdecember]
      rw [if_neg hdecember] at hmonth
      unfold ofParts
      rw [hmonth, hfirst]
      dsimp only
      congr 1
      split <;> omega

/-- A day that is not the last of its year from March is followed by
    another day of that year. -/
theorem next_ofParts (hyear : year < 400) (hday : yearStart year + day + 1 < yearStart (year + 1)) :
    (ofParts cycle year day).next = ofParts cycle year (day + 1) := by
  by_cases hlt : day < 364
  · exact next_ofParts_of_lt hlt
  · -- What comes after 28 February is the leap day.
    rw [yearStart_succ year hyear] at hday
    have hleap : isLeapYear ((year : Int) + 1) = true := by
      by_contra hcommon
      rw [if_neg hcommon] at hday
      omega
    obtain rfl : day = 364 := by
      rw [if_pos hleap] at hday
      omega
    have hin : 28 < daysInMonth (ofParts cycle year 364).year 2 := by
      rw [daysInMonth_february, isLeapYear_ofParts rfl, if_pos hleap]
      decide
    exact next_of_day_lt hin

/-- The last day of a year from March is followed by 1 March. -/
theorem next_ofParts_last (hyear : year < 400)
    (hday : yearStart year + day + 1 = yearStart (year + 1)) :
    (ofParts cycle year day).next = ofParts cycle (year + 1) 0 := by
  rw [yearStart_succ year hyear] at hday
  have hfebruary : monthAfterMarch (monthsFromMarch day) = 2 ∧
      ¬ dayOfMonth day < daysInMonth (ofParts cycle year day).year 2 := by
    by_cases hleap : isLeapYear ((year : Int) + 1) = true
    · obtain rfl : day = 365 := by
        rw [if_pos hleap] at hday
        omega
      rw [daysInMonth_february, isLeapYear_ofParts rfl, if_pos hleap]
      decide
    · obtain rfl : day = 364 := by
        rw [if_neg hleap] at hday
        omega
      rw [daysInMonth_february, isLeapYear_ofParts rfl, if_neg hleap]
      decide
  obtain ⟨hmonth, hend⟩ := hfebruary
  have hlast : ¬ (ofParts cycle year day).day <
      daysInMonth (ofParts cycle year day).year (ofParts cycle year day).month := by
    show ¬ dayOfMonth day < daysInMonth _ (monthAfterMarch (monthsFromMarch day))
    rw [hmonth]
    exact hend
  have hbefore : (ofParts cycle year day).month < 12 := by
    show monthAfterMarch (monthsFromMarch day) < 12
    omega
  rw [next_of_month_lt hlast hbefore]
  unfold ofParts
  rw [hmonth]
  show CivilDate.mk ((year : Int) + cycle * 400 + 1) 3 1 =
    ⟨((year + 1 : Nat) : Int) + cycle * 400 + 0, 3, 1⟩
  congr 1
  omega

end Next

/-- The four-hundredth year ends with the cycle. -/
theorem ofParts_cycle (cycle : Int) (day : Nat) :
    ofParts cycle 400 day = ofParts (cycle + 1) 0 day := by
  unfold ofParts
  dsimp only
  congr 1
  omega

/-- Numbers go up by one from each day to the next. -/
theorem ofDayNumber_succ (number : Int) : ofDayNumber (number + 1) = (ofDayNumber number).next := by
  obtain ⟨cycle, day, hlt, hnumber⟩ := exists_cycle number
  obtain ⟨hyear, hstart, hend⟩ := yearOfDay_spec hlt
  have hsucc : number + 1 + epochOffset = cycle * daysPerCycle + (day + 1 : Nat) := by
    push_cast
    omega
  rw [ofDayNumber_eq number hlt hnumber]
  rcases Nat.lt_trichotomy (day + 1) (yearStart (yearOfDay day + 1)) with hin | hlast | hover
  · -- The same year from March goes on.
    have hcycle : yearStart (yearOfDay day + 1) ≤ 146097 := by
      unfold yearStart
      omega
    rw [ofDayNumber_eq _ (hin.trans_le hcycle) hsucc, yearOfDay_eq hyear (by omega) hin,
      next_ofParts hyear (by omega)]
    congr 1
    omega
  · rw [next_ofParts_last hyear (by omega)]
    rcases Nat.lt_or_eq_of_le (Nat.succ_le_of_lt hyear) with hnext | hfull
    · have hfirst : yearOfDay (day + 1) = yearOfDay day + 1 := by
        rw [hlast]
        exact (yearOfDay_ends _ hnext).1
      have hcycle : day + 1 < 146097 := by
        rw [hlast]
        unfold yearStart
        omega
      rw [ofDayNumber_eq _ hcycle hsucc, hfirst, ← hlast, Nat.sub_self]
    · -- The next day is the first of the next cycle.
      have hfull' : yearOfDay day + 1 = 400 := hfull
      rw [hfull'] at hlast ⊢
      have hfirst : number + 1 + epochOffset = (cycle + 1) * daysPerCycle + (0 : Nat) := by
        rw [hsucc, hlast]
        show cycle * 146097 + 146097 = (cycle + 1) * 146097 + 0
        omega
      rw [ofDayNumber_eq _ (by decide) hfirst, ofParts_cycle]
      rfl
  · omega

example : ofDayNumber 0 = ⟨1970, 1, 1⟩ := by decide

/-- Greater numbers are those of later days. -/
theorem ofDayNumber_before {number number' : Int} (hlt : number < number') :
    (ofDayNumber number).Before (ofDayNumber number') := by
  refine Int.rel_of_forall_rel_succ_of_lt Before ?_ hlt
  intro number
  rw [ofDayNumber_succ]
  exact before_next _

/-- Later days do not lie in earlier years. -/
theorem year_monotone {number number' : Int} (hle : number ≤ number') :
    (ofDayNumber number).year ≤ (ofDayNumber number').year := by
  rcases hle.eq_or_lt with rfl | hlt
  · exact le_rfl
  · have hbefore := ofDayNumber_before hlt
    unfold Before at hbefore
    omega

end CondExpr.CivilDate
