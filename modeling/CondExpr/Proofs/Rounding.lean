import CondExpr.Number.Binary64
import Mathlib.Data.Nat.Log
import Mathlib.Data.Rat.Cast.Order
import Mathlib.Tactic.FieldSimp
import Mathlib.Tactic.Linarith
import Mathlib.Tactic.Positivity
import Mathlib.Tactic.Ring

/-! # Rounding to the nearest double

  The real numbers that round to a magnitude form an interval. It reaches
  halfway to the two neighbouring magnitudes, and its ends belong to it iff
  the rank is even. The intervals of different ranks do not meet, and the
  rank that is worked out for a fraction is the one whose interval the
  fraction lies in. So lying in an interval and being rounded are the same,
  and statements about rounding become comparisons with two numbers.

  All quantities here are counted in units of `2 ^ -1074`.
-/

namespace CondExpr.Binary64

/-! ## Section 1: Spacing -/

/-- A significand with an exponent above that of the least magnitudes has
    the unit of that exponent. It may have reached the next exponent. -/
theorem units_eq {shift significand : Nat} (hle : significand ≤ 2 * twoPow 52)
    (hnormal : twoPow 52 ≤ significand ∨ shift = 0) :
    units (shift * twoPow 52 + significand) = significand * twoPow shift := by
  have hpow : twoPow 52 = 4503599627370496 := rfl
  rw [hpow] at hle hnormal
  unfold units
  rw [hpow]
  by_cases hcarry : significand = 2 * 4503599627370496
  · have hmod : (shift * 4503599627370496 + significand) % 4503599627370496 = 0 := by omega
    have hdiv : (shift * 4503599627370496 + significand) / 4503599627370496 = shift + 2 := by omega
    have hpows : twoPow (shift + 2 - 1) = 2 * twoPow shift := Nat.pow_succ'
    rw [if_neg (by omega), hmod, hdiv, hpows, hcarry]
    ring
  · by_cases hsmall : significand < 4503599627370496
    · have hshift : shift = 0 := by omega
      have hone : twoPow 0 = 1 := rfl
      rw [hshift, Nat.zero_mul, Nat.zero_add, if_pos hsmall, hone, Nat.mul_one]
    · have hmod : (shift * 4503599627370496 + significand) % 4503599627370496 +
          4503599627370496 = significand := by omega
      have hdiv : (shift * 4503599627370496 + significand) / 4503599627370496 - 1 = shift := by
        omega
      rw [if_neg (by omega), hmod, hdiv]

/-- Every rank is a shift and a significand of at most 53 bits. -/
theorem exists_shift (rank : Nat) : ∃ shift significand,
    rank = shift * twoPow 52 + significand ∧ significand < 2 * twoPow 52 ∧
      (twoPow 52 ≤ significand ∨ shift = 0) := by
  have hpow : twoPow 52 = 4503599627370496 := rfl
  rw [hpow]
  exact ⟨rank / 4503599627370496 - 1, rank - (rank / 4503599627370496 - 1) * 4503599627370496,
    by omega, by omega, by omega⟩

theorem twoPow_pos (n : Nat) : 0 < twoPow n := Nat.pow_pos (by decide)

theorem units_lt_succ (rank : Nat) : units rank < units (rank + 1) := by
  obtain ⟨shift, significand, rfl, hlt, hnormal⟩ := exists_shift rank
  have hpos := twoPow_pos shift
  rw [Nat.add_assoc, units_eq (by omega) hnormal, units_eq (by omega) (by omega), Nat.add_mul]
  omega

theorem units_strictMono : StrictMono units := strictMono_nat_of_lt_succ units_lt_succ

@[simp] theorem units_zero : units 0 = 0 := rfl

theorem units_pos {rank : Nat} (hpos : 0 < rank) : 0 < units rank :=
  units_zero ▸ units_strictMono hpos

/-- The magnitude before: one unit of the exponent less, or half of it where
    the exponent changes. -/
theorem units_pred {shift significand : Nat} (hpos : 0 < significand)
    (hle : significand ≤ 2 * twoPow 52) (hnormal : twoPow 52 ≤ significand ∨ shift = 0) :
    units (shift * twoPow 52 + significand - 1) + twoPow shift =
        units (shift * twoPow 52 + significand) ∨
      (significand = twoPow 52 ∧ 0 < shift ∧
        2 * units (shift * twoPow 52 + significand - 1) + twoPow shift =
          2 * units (shift * twoPow 52 + significand)) := by
  have hpow : 0 < twoPow 52 := twoPow_pos 52
  by_cases hedge : significand = twoPow 52 ∧ 0 < shift
  · obtain ⟨rfl, hshift⟩ := hedge
    obtain ⟨shift, rfl⟩ := Nat.exists_eq_succ_of_ne_zero hshift.ne'
    have hpred : (shift + 1) * twoPow 52 + twoPow 52 - 1 =
        shift * twoPow 52 + (2 * twoPow 52 - 1) := by
      rw [Nat.add_mul]
      omega
    have hpows : twoPow (shift + 1) = 2 * twoPow shift := Nat.pow_succ'
    refine .inr ⟨rfl, hshift, ?_⟩
    rw [Nat.succ_eq_add_one, hpred, units_eq (by omega) (by omega), units_eq (by omega) (by omega),
      hpows, Nat.sub_mul]
    have hbig : 1 * twoPow shift ≤ 2 * twoPow 52 * twoPow shift :=
      Nat.mul_le_mul_right _ (by omega)
    have hring : 2 * (twoPow 52 * (2 * twoPow shift)) = 2 * (2 * twoPow 52 * twoPow shift) := by
      ring
    omega
  · have hpred : shift * twoPow 52 + significand - 1 = shift * twoPow 52 + (significand - 1) := by
      omega
    have hbig : 1 * twoPow shift ≤ significand * twoPow shift := Nat.mul_le_mul_right _ hpos
    refine .inl ?_
    rw [hpred, units_eq (by omega) (by omega), units_eq hle hnormal, Nat.sub_mul]
    omega

/-- The magnitude after: one unit of the exponent more, or two where the
    exponent changes. -/
theorem units_succ_ge {shift significand : Nat} (hle : significand ≤ 2 * twoPow 52)
    (hnormal : twoPow 52 ≤ significand ∨ shift = 0) :
    units (shift * twoPow 52 + significand) + twoPow shift ≤
      units (shift * twoPow 52 + significand + 1) := by
  have hpow : 0 < twoPow 52 := twoPow_pos 52
  rw [units_eq hle hnormal]
  by_cases hcarry : significand = 2 * twoPow 52
  · have hnext : shift * twoPow 52 + significand + 1 =
        (shift + 1) * twoPow 52 + (twoPow 52 + 1) := by
      rw [Nat.add_mul]
      omega
    have hpows : twoPow (shift + 1) = 2 * twoPow shift := Nat.pow_succ'
    have hring : (twoPow 52 + 1) * (2 * twoPow shift) =
        2 * twoPow 52 * twoPow shift + twoPow shift + twoPow shift := by
      ring
    rw [hnext, units_eq (by omega) (by omega), hpows, hcarry, hring]
    omega
  · rw [Nat.add_assoc, units_eq (by omega) (by omega), Nat.add_mul]
    omega

/-! ## Section 2: Rounding intervals -/

/-- The number of units lies in the rounding interval of the rank. -/
structure Rounds (y : ℚ) (rank : Nat) : Prop where
  least_le : (units (rank - 1) + units rank : ℚ) ≤ 2 * y
  le_most : 2 * y ≤ units rank + units (rank + 1)
  /-- The ends belong to the interval only of even ranks. -/
  inside : rank % 2 = 1 →
    (units (rank - 1) + units rank : ℚ) < 2 * y ∧ 2 * y < units rank + units (rank + 1)

namespace Rounds

variable {y : ℚ} {rank other : Nat}

/-- The interval of a rank ends before those of greater ranks begin. -/
private theorem not_lt (h : Rounds y rank) (hother : Rounds y other) : ¬ rank < other := by
  intro hlt
  have hmono : units rank ≤ units (other - 1) := units_strictMono.monotone (by omega)
  have hnext : units (rank + 1) ≤ units other := units_strictMono.monotone (by omega)
  have hmono' : (units rank : ℚ) ≤ units (other - 1) := by exact_mod_cast hmono
  have hnext' : (units (rank + 1) : ℚ) ≤ units other := by exact_mod_cast hnext
  have hmost := h.le_most
  have hleast := hother.least_le
  -- Where they touch, the ranks are neighbours, and one of them is odd.
  have htouch : (units (rank + 1) : ℚ) = units other := by linarith
  have heq : rank + 1 = other := units_strictMono.injective (by exact_mod_cast htouch)
  rcases Nat.mod_two_eq_zero_or_one rank with heven | hodd
  · have := (hother.inside (by omega)).1
    linarith
  · have := (h.inside hodd).2
    linarith

/-- A number rounds to one rank only. -/
theorem unique (h : Rounds y rank) (hother : Rounds y other) : rank = other := by
  have hle := h.not_lt hother
  have hge := hother.not_lt h
  omega

/-- Greater numbers do not round to smaller ranks. -/
theorem le_of_le {y' : ℚ} (h : Rounds y rank) (hother : Rounds y' other) (hle : y ≤ y') :
    rank ≤ other := by
  by_contra hlt
  have hmono : units other ≤ units (rank - 1) := units_strictMono.monotone (by omega)
  have hnext : units (other + 1) ≤ units rank := units_strictMono.monotone (by omega)
  have hmono' : (units other : ℚ) ≤ units (rank - 1) := by exact_mod_cast hmono
  have hnext' : (units (other + 1) : ℚ) ≤ units rank := by exact_mod_cast hnext
  have hleast := h.least_le
  have hmost := hother.le_most
  -- Between the two intervals there is no room but for one number.
  have heq : y = y' := by linarith
  exact hlt (h.unique (heq ▸ hother)).le

/-- No other magnitude is nearer than the one of the interval. -/
theorem nearest (h : Rounds y rank) (other : Nat) : |y - units rank| ≤ |y - units other| := by
  have hleast := h.least_le
  have hmost := h.le_most
  rcases Nat.lt_trichotomy other rank with hlt | heq | hgt
  · have hmono : units other ≤ units (rank - 1) := units_strictMono.monotone (by omega)
    have hmono' : (units other : ℚ) ≤ units (rank - 1) := by exact_mod_cast hmono
    have hless : (units other : ℚ) < units rank := by exact_mod_cast units_strictMono hlt
    have habs := le_abs_self (y - units other)
    rw [abs_le]
    constructor <;> linarith
  · rw [heq]
  · have hmono : units (rank + 1) ≤ units other := units_strictMono.monotone (by omega)
    have hmono' : (units (rank + 1) : ℚ) ≤ units other := by exact_mod_cast hmono
    have hless : (units rank : ℚ) < units other := by exact_mod_cast units_strictMono hgt
    have habs := neg_abs_le (y - units other)
    rw [abs_le]
    constructor <;> linarith

/-- A magnitude rounds to itself. -/
theorem self (rank : Nat) : Rounds (units rank) rank := by
  have hsucc : (units rank : ℚ) < units (rank + 1) := by exact_mod_cast units_lt_succ rank
  have hpred : units (rank - 1) ≤ units rank := units_strictMono.monotone (by omega)
  have hpred' : (units (rank - 1) : ℚ) ≤ units rank := by exact_mod_cast hpred
  refine ⟨by linarith, by linarith, ?_⟩
  intro hodd
  have hless : units (rank - 1) < units rank := units_strictMono (by omega)
  have hless' : (units (rank - 1) : ℚ) < units rank := by exact_mod_cast hless
  exact ⟨by linarith, by linarith⟩

end Rounds

/-- Where a fraction lies is found out without dividing. -/
theorem rounds_div_iff {num den rank : Nat} (hden : 0 < den) :
    Rounds (num / den) rank ↔
      (units (rank - 1) + units rank) * den ≤ 2 * num ∧
        2 * num ≤ (units rank + units (rank + 1)) * den ∧
        (rank % 2 = 1 → (units (rank - 1) + units rank) * den < 2 * num ∧
          2 * num < (units rank + units (rank + 1)) * den) := by
  have hden' : (0 : ℚ) < den := by exact_mod_cast hden
  have hdouble : 2 * ((num : ℚ) / den) = (2 * num : Nat) / den := by
    push_cast
    ring
  have hle (a b : Nat) : (a + b : ℚ) ≤ 2 * (num / den) ↔ (a + b) * den ≤ 2 * num := by
    rw [hdouble, le_div_iff₀ hden']
    exact_mod_cast Iff.rfl
  have hge (a b : Nat) : 2 * ((num : ℚ) / den) ≤ a + b ↔ 2 * num ≤ (a + b) * den := by
    rw [hdouble, div_le_iff₀ hden']
    exact_mod_cast Iff.rfl
  have hlt (a b : Nat) : (a + b : ℚ) < 2 * (num / den) ↔ (a + b) * den < 2 * num := by
    rw [← not_le, hge, not_le]
  have hgt (a b : Nat) : 2 * ((num : ℚ) / den) < a + b ↔ 2 * num < (a + b) * den := by
    rw [← not_le, hle, not_le]
  constructor
  · intro h
    exact ⟨(hle _ _).mp h.least_le, (hge _ _).mp h.le_most, fun hodd =>
      ⟨(hlt _ _).mp (h.inside hodd).1, (hgt _ _).mp (h.inside hodd).2⟩⟩
  · intro h
    obtain ⟨hleast, hmost, hinside⟩ := h
    exact ⟨(hle _ _).mpr hleast, (hge _ _).mpr hmost, fun hodd =>
      ⟨(hlt _ _).mpr (hinside hodd).1, (hgt _ _).mpr (hinside hodd).2⟩⟩

/-! ## Section 3: The rank of a fraction -/

/-- Rounding to a natural number errs by half of one at most, and by half
    only to the even side. -/
theorem roundHalfEven_spec (num : Nat) {den : Nat} (hden : 0 < den) :
    2 * roundHalfEven num den * den ≤ 2 * num + den ∧
      2 * num ≤ 2 * roundHalfEven num den * den + den ∧
      (roundHalfEven num den % 2 = 1 → 2 * roundHalfEven num den * den < 2 * num + den ∧
        2 * num < 2 * roundHalfEven num den * den + den) := by
  have hdivmod := Nat.div_add_mod num den
  have hrest := Nat.mod_lt num hden
  unfold roundHalfEven
  generalize num / den = quotient at *
  generalize num % den = rest at *
  have hprod : 2 * quotient * den = 2 * (den * quotient) := by ring
  have hnext : 2 * (quotient + 1) * den = 2 * (den * quotient) + 2 * den := by ring
  by_cases hdown : 2 * rest < den ∨ (2 * rest = den ∧ quotient % 2 = 0)
  · rw [if_pos hdown, hprod]
    omega
  · rw [if_neg hdown, hnext]
    omega

/-- How far a fraction is shifted so that 53 bits are left of it. -/
theorem shift_spec (num : Nat) {den : Nat} (hden : 0 < den) :
    num < 2 * twoPow 52 * (den * twoPow ((num / den).log2 - 52)) ∧
      (twoPow 52 * (den * twoPow ((num / den).log2 - 52)) ≤ num ∨ (num / den).log2 - 52 = 0) := by
  generalize hquotient : num / den = quotient
  generalize hshift : quotient.log2 - 52 = shift
  have hupper : quotient < 2 * twoPow 52 * twoPow shift := by
    have hlt : quotient < 2 ^ (52 + shift + 1) := by
      refine Nat.lt_of_lt_of_le Nat.lt_log2_self ?_
      exact Nat.pow_le_pow_right (by decide) (by omega)
    have hsplit : 2 ^ (52 + shift + 1) = 2 * twoPow 52 * twoPow shift := by
      rw [Nat.pow_succ, Nat.pow_add, Nat.mul_comm (2 ^ 52 * _), Nat.mul_assoc]
      rfl
    rwa [hsplit] at hlt
  constructor
  · have hnum : num < 2 * twoPow 52 * twoPow shift * den := by
      rw [← Nat.div_lt_iff_lt_mul hden, hquotient]
      exact hupper
    have hring : 2 * twoPow 52 * twoPow shift * den = 2 * twoPow 52 * (den * twoPow shift) := by
      ring
    rwa [hring] at hnum
  · by_cases hzero : shift = 0
    · exact .inr hzero
    · have hne : quotient ≠ 0 := by
        intro heq
        rw [heq] at hshift
        exact hzero (by rw [← hshift]; rfl)
      have hlower : twoPow 52 * twoPow shift ≤ quotient := by
        have hle := Nat.log2_self_le hne
        have hsplit : 2 ^ quotient.log2 = twoPow 52 * twoPow shift := by
          rw [show quotient.log2 = 52 + shift by omega, Nat.pow_add]
          rfl
        rwa [hsplit] at hle
      have hmul : den * (twoPow 52 * twoPow shift) ≤ num := by
        refine Nat.le_trans (Nat.mul_le_mul_left den hlower) ?_
        rw [← hquotient]
        exact Nat.mul_div_le num den
      have hring : den * (twoPow 52 * twoPow shift) = twoPow 52 * (den * twoPow shift) := by ring
      rw [hring] at hmul
      exact .inl hmul

/-- A significand that is nearest among the multiples of its unit belongs to
    the rank that is nearest among all. -/
private theorem rounds_of_significand {num den shift significand : Nat} (hden : 0 < den)
    (hupper : num < 2 * twoPow 52 * (den * twoPow shift))
    (hlower : twoPow 52 * (den * twoPow shift) ≤ num ∨ shift = 0)
    (hspec : 2 * significand * (den * twoPow shift) ≤ 2 * num + den * twoPow shift ∧
      2 * num ≤ 2 * significand * (den * twoPow shift) + den * twoPow shift ∧
      (significand % 2 = 1 →
        2 * significand * (den * twoPow shift) < 2 * num + den * twoPow shift ∧
          2 * num < 2 * significand * (den * twoPow shift) + den * twoPow shift)) :
    Rounds (num / den) (shift * twoPow 52 + significand) := by
  obtain ⟨hbelow, habove, hinside⟩ := hspec
  have hstep : 0 < den * twoPow shift := Nat.mul_pos hden (twoPow_pos shift)
  -- The significand stays within its 53 bits, or just reaches the 54th.
  have hle : significand ≤ 2 * twoPow 52 := by
    by_contra hgt
    have hmul := Nat.mul_le_mul_right (den * twoPow shift)
      (show 2 * (2 * twoPow 52) + 2 ≤ 2 * significand by omega)
    rw [Nat.add_mul, Nat.mul_assoc 2 (2 * twoPow 52)] at hmul
    omega
  have hnormal : twoPow 52 ≤ significand ∨ shift = 0 := by
    refine hlower.imp_left fun hnum => ?_
    by_contra hlt
    have hmul := Nat.mul_le_mul_right (den * twoPow shift)
      (show 2 * significand + 2 ≤ 2 * twoPow 52 by omega)
    rw [Nat.add_mul, Nat.mul_assoc 2 (twoPow 52)] at hmul
    omega
  have hparity : (shift * twoPow 52 + significand) % 2 = significand % 2 := by
    have hpow : twoPow 52 = 4503599627370496 := rfl
    rw [hpow]
    omega
  -- Both ends of the interval, compared with the points halfway to the
  -- neighbouring significands.
  have hmost : 2 * significand * (den * twoPow shift) + den * twoPow shift ≤
      (units (shift * twoPow 52 + significand) +
        units (shift * twoPow 52 + significand + 1)) * den := by
    have hnext := units_succ_ge hle hnormal
    have hhere := units_eq hle hnormal
    calc 2 * significand * (den * twoPow shift) + den * twoPow shift
        = (significand * twoPow shift + (significand * twoPow shift + twoPow shift)) * den := by
          ring
      _ ≤ _ := Nat.mul_le_mul_right den (by omega)
  have hleast : (units (shift * twoPow 52 + significand - 1) +
      units (shift * twoPow 52 + significand)) * den + den * twoPow shift ≤
        2 * significand * (den * twoPow shift) ∨
      (significand % 2 = 0 ∧ (units (shift * twoPow 52 + significand - 1) +
        units (shift * twoPow 52 + significand)) * den ≤ 2 * num) := by
    have hhere := units_eq hle hnormal
    rcases Nat.eq_zero_or_pos significand with hzero | hpos
    · have hshift : shift = 0 := by
        have := twoPow_pos 52
        omega
      rw [hzero, hshift]
      exact .inr ⟨rfl, by simp⟩
    · rcases units_pred hpos hle hnormal with hpred | ⟨hedge, hshift, hpred⟩
      · refine .inl (le_of_eq ?_)
        calc _ = (units (shift * twoPow 52 + significand - 1) + twoPow shift +
              units (shift * twoPow 52 + significand)) * den := by ring
          _ = 2 * significand * (den * twoPow shift) := by
            rw [hpred, hhere]
            ring
      · refine .inr ⟨by rw [hedge]; rfl, ?_⟩
        have hnum : twoPow 52 * (den * twoPow shift) ≤ num := by omega
        calc _ ≤ 2 * units (shift * twoPow 52 + significand) * den :=
              Nat.mul_le_mul_right den (by omega)
          _ = 2 * (twoPow 52 * (den * twoPow shift)) := by
            rw [hhere, hedge]
            ring
          _ ≤ 2 * num := Nat.mul_le_mul_left 2 hnum
  rw [rounds_div_iff hden, hparity]
  refine ⟨?_, by omega, ?_⟩
  · rcases hleast with hleast | ⟨_, hleast⟩ <;> omega
  · intro hodd
    obtain ⟨hbelow, habove⟩ := hinside hodd
    rcases hleast with hleast | ⟨heven, _⟩
    · exact ⟨by omega, by omega⟩
    · omega

/-- The rank worked out for a fraction is the one it rounds to. -/
theorem rounds_rankOfRatio (num : Nat) {den : Nat} (hden : 0 < den) :
    Rounds ((num : ℚ) * unitsPerOne / den) (rankOfRatio num den) := by
  unfold rankOfRatio
  generalize hscaled : num * unitsPerOne = scaled
  have hcast : (num : ℚ) * unitsPerOne = scaled := by rw [← hscaled, Nat.cast_mul]
  obtain ⟨hupper, hlower⟩ := shift_spec scaled hden
  rw [hcast]
  show Rounds _ (((scaled / den).log2 - 52) * twoPow 52 +
    roundHalfEven scaled (den * twoPow ((scaled / den).log2 - 52)))
  generalize (scaled / den).log2 - 52 = shift at *
  have hstep : 0 < den * twoPow shift := Nat.mul_pos hden (twoPow_pos shift)
  have hspec := roundHalfEven_spec scaled hstep
  generalize roundHalfEven scaled (den * twoPow shift) = significand at *
  exact rounds_of_significand hden hupper hlower hspec

/-- A fraction is rounded to a rank just when it lies in its interval. -/
theorem rankOfRatio_eq_iff {num den rank : Nat} (hden : 0 < den) :
    rankOfRatio num den = rank ↔ Rounds ((num : ℚ) * unitsPerOne / den) rank := by
  constructor
  · intro h
    rw [← h]
    exact rounds_rankOfRatio num hden
  · intro h
    exact (rounds_rankOfRatio num hden).unique h

/-- A fraction that is rounded to a finite rank is rounded to its double. -/
theorem ofRatio_eq {num den : Nat} {rank : Fin rankCount} (h : rankOfRatio num den = rank.val)
    (negative : Bool) : ofRatio negative num den = .finite negative rank := by
  have hlt : rankOfRatio num den < rankCount := by
    rw [h]
    exact rank.isLt
  have heq : (⟨rankOfRatio num den, hlt⟩ : Fin rankCount) = rank := Fin.ext h
  rw [ofRatio, dif_pos hlt, heq]

end CondExpr.Binary64
