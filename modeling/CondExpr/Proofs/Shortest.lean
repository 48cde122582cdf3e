import CondExpr.Number.Decimal
import CondExpr.Proofs.Rounding
import Mathlib.Algebra.Order.Field.Power

/-! # Shortest decimals round back

  The decimal that is found for a double lies in the rounding interval of
  its magnitude, so it is rounded to the double it was found for. A grid of
  decimals has a point in the interval as soon as its step is smaller than
  the interval is wide. The grid of seventeen digits is that fine for every
  magnitude, so the walk over the grids ends in time, and seventeen digits
  are never exceeded.
-/

namespace CondExpr

open Binary64 (Rounds units unitsPerOne)

namespace Decimal

/-! ## Section 1: Values -/

/-- The number that a decimal is. -/
def value (d : Decimal) : ℚ := d.coefficient * (10 : ℚ) ^ d.exponent

/-- The decimal in units of `2 ^ -1074`. -/
def inUnits (d : Decimal) : ℚ := d.value * unitsPerOne

theorem tenPow_pos (n : Nat) : 0 < tenPow n := Nat.pow_pos (by decide)

theorem unitsPerOne_pos : 0 < unitsPerOne := Binary64.twoPow_pos 1074

theorem zpow_eq_div (e : Int) : (10 : ℚ) ^ e = (tenPow e.toNat : ℚ) / tenPow (-e).toNat := by
  have hcast (n : Nat) : (tenPow n : ℚ) = (10 : ℚ) ^ n := by
    show ((10 ^ n : Nat) : ℚ) = _
    push_cast
    rfl
  rw [hcast, hcast]
  rcases Int.le_total 0 e with hnonneg | hneg
  · obtain ⟨n, rfl⟩ := Int.eq_ofNat_of_zero_le hnonneg
    simp
  · obtain ⟨n, hn⟩ := Int.eq_ofNat_of_zero_le (show 0 ≤ -e by omega)
    obtain rfl : e = -n := by omega
    simp

/-- The fraction that is formed of a decimal to round it. -/
theorem inUnits_eq_div (d : Decimal) :
    d.inUnits = ((d.coefficient * tenPow d.exponent.toNat : Nat) : ℚ) * unitsPerOne /
      tenPow (-d.exponent).toNat := by
  rw [inUnits, value, zpow_eq_div]
  push_cast
  ring

theorem inUnits_eq_of_value_eq {d d' : Decimal} (h : d.value = d'.value) :
    d.inUnits = d'.inUnits := by
  rw [inUnits, inUnits, h]

/-- A positive number lies between two powers of ten by its count of digits. -/
theorem digitCount_spec {n : Nat} (hpos : 0 < n) :
    10 ^ (digitCount n - 1) ≤ n ∧ n < 10 ^ digitCount n := by
  unfold digitCount
  have hlen : 0 < (Nat.toDigits 10 n).length := Nat.length_toDigits_pos
  constructor
  · rcases Nat.eq_zero_or_pos ((Nat.toDigits 10 n).length - 1) with hone | hmore
    · rw [hone]
      exact hpos
    · have hiff := Nat.length_toDigits_le_iff (n := n) (show 1 < 10 by decide) hmore
      omega
  · exact (Nat.length_toDigits_le_iff (by decide) hlen).mp (Nat.le_refl _)

/-- A decimal that is not zero lies between two powers of ten. -/
theorem value_bounds {d : Decimal} (hpos : 0 < d.coefficient) :
    (10 : ℚ) ^ ((digitCount d.coefficient : Int) + d.exponent - 1) ≤ d.value ∧
      d.value < (10 : ℚ) ^ ((digitCount d.coefficient : Int) + d.exponent) := by
  obtain ⟨hlower, hupper⟩ := digitCount_spec hpos
  have hcount : 0 < digitCount d.coefficient := Nat.length_toDigits_pos
  have hten : (10 : ℚ) ≠ 0 := by norm_num
  have hexp : (0 : ℚ) < (10 : ℚ) ^ d.exponent := by positivity
  have hlower' : (10 : ℚ) ^ ((digitCount d.coefficient - 1 : Nat) : Int) ≤ d.coefficient := by
    rw [zpow_natCast]
    exact_mod_cast hlower
  have hupper' : (d.coefficient : ℚ) < (10 : ℚ) ^ (digitCount d.coefficient : Int) := by
    rw [zpow_natCast]
    exact_mod_cast hupper
  have hsplit : (digitCount d.coefficient : Int) + d.exponent - 1 =
      ((digitCount d.coefficient - 1 : Nat) : Int) + d.exponent := by
    omega
  unfold value
  rw [hsplit, zpow_add₀ hten, zpow_add₀ hten]
  exact ⟨mul_le_mul_of_nonneg_right hlower' hexp.le, mul_lt_mul_of_pos_right hupper' hexp⟩

/-! ## Section 2: Rounding a decimal -/

theorem units_rankCount : units Binary64.rankCount = twoPow 2098 := by
  decide +kernel

/-- Half a unit is beyond the 330th decimal place. -/
theorem half_unit_gt : 2 * ((10 : ℚ) ^ (-330 : Int) * unitsPerOne) < 1 := by
  have hnat : 2 * unitsPerOne < 10 ^ 330 := by decide +kernel
  have hcast : (2 * unitsPerOne : ℚ) < 10 ^ 330 := by exact_mod_cast hnat
  have hpos : (0 : ℚ) < 10 ^ 330 := by positivity
  rw [zpow_neg, show ((10 : ℚ) ^ (330 : Int)) = 10 ^ 330 from rfl]
  rw [inv_mul_eq_div, ← mul_div_assoc, div_lt_one hpos]
  exact hcast

/-- The finite magnitudes end below the 310th power of ten. -/
theorem rankCount_lt : (units Binary64.rankCount : ℚ) < (10 : ℚ) ^ (310 : Int) * unitsPerOne := by
  have hnat : units Binary64.rankCount < 10 ^ 310 * unitsPerOne := by
    rw [units_rankCount]
    decide +kernel
  rw [show ((10 : ℚ) ^ (310 : Int)) = 10 ^ 310 from rfl]
  exact_mod_cast hnat

/-- Nothing but the least magnitude is rounded to from below half a unit. -/
theorem rank_eq_zero_of_lt {y : ℚ} {rank : Nat} (h : Rounds y rank) (hsmall : 2 * y < 1) :
    rank = 0 := by
  by_contra hne
  have hone : units 1 ≤ units rank := Binary64.units_strictMono.monotone (by omega)
  have hcast : (1 : ℚ) ≤ units rank := by exact_mod_cast hone
  have hpred : (0 : ℚ) ≤ units (rank - 1) := Nat.cast_nonneg _
  have hleast := h.least_le
  linarith

/-- What is rounded to a finite magnitude is below the 310th power of ten. -/
theorem rounds_lt_of_rank_lt {y : ℚ} {rank : Nat} (h : Rounds y rank)
    (hlt : rank < Binary64.rankCount) : y < (10 : ℚ) ^ (310 : Int) * unitsPerOne := by
  have hnext : units (rank + 1) ≤ units Binary64.rankCount :=
    Binary64.units_strictMono.monotone hlt
  have hhere : units rank ≤ units Binary64.rankCount :=
    Binary64.units_strictMono.monotone hlt.le
  have hnext' : (units (rank + 1) : ℚ) ≤ units Binary64.rankCount := by exact_mod_cast hnext
  have hhere' : (units rank : ℚ) ≤ units Binary64.rankCount := by exact_mod_cast hhere
  have hmost := h.le_most
  have hcount := rankCount_lt
  linarith

section Order

variable {d : Decimal} {rank : Nat}

/-- A decimal that only begins behind the 330th place rounds to zero. -/
theorem rank_eq_zero_of_order_le (hpos : 0 < d.coefficient) (h : Rounds d.inUnits rank)
    (horder : (digitCount d.coefficient : Int) + d.exponent ≤ -330) : rank = 0 := by
  have hunit : (0 : ℚ) < unitsPerOne := by exact_mod_cast unitsPerOne_pos
  obtain ⟨-, hupper⟩ := value_bounds hpos
  have hle : (10 : ℚ) ^ ((digitCount d.coefficient : Int) + d.exponent) ≤
      (10 : ℚ) ^ (-330 : Int) := zpow_le_zpow_right₀ (by norm_num) horder
  have hsmall : d.inUnits < (10 : ℚ) ^ (-330 : Int) * unitsPerOne :=
    mul_lt_mul_of_pos_right (hupper.trans_le hle) hunit
  have hhalf := half_unit_gt
  exact rank_eq_zero_of_lt h (by linarith)

/-- A decimal that rounds to a finite magnitude has at most 310 digits in
    front of its point. -/
theorem order_le_of_rank_lt (hpos : 0 < d.coefficient) (h : Rounds d.inUnits rank)
    (hlt : rank < Binary64.rankCount) : (digitCount d.coefficient : Int) + d.exponent ≤ 310 := by
  have hunit : (0 : ℚ) < unitsPerOne := by exact_mod_cast unitsPerOne_pos
  obtain ⟨hlower, -⟩ := value_bounds hpos
  by_contra horder
  have hle : (10 : ℚ) ^ (310 : Int) ≤
      (10 : ℚ) ^ ((digitCount d.coefficient : Int) + d.exponent - 1) :=
    zpow_le_zpow_right₀ (by norm_num) (by omega)
  have hlarge : (10 : ℚ) ^ (310 : Int) * unitsPerOne ≤ d.inUnits :=
    mul_le_mul_of_nonneg_right (hle.trans hlower) hunit.le
  have hover := rounds_lt_of_rank_lt h hlt
  linarith

end Order

/-- The order of a fraction is the power of ten that it comes below. -/
theorem orderOfRatio_spec {num den : Nat} (hnum : 0 < num) (hden : 0 < den) :
    (10 : ℚ) ^ (orderOfRatio num den - 1) ≤ (num : ℚ) / den ∧
      (num : ℚ) / den < (10 : ℚ) ^ orderOfRatio num den := by
  have hnum' : (0 : ℚ) < num := by exact_mod_cast hnum
  have hden' : (0 : ℚ) < den := by exact_mod_cast hden
  unfold orderOfRatio
  split
  · rename_i hle
    have hquotient : 0 < num / den := Nat.div_pos hle hden
    obtain ⟨hlower, hupper⟩ := digitCount_spec hquotient
    have hcount : 0 < digitCount (num / den) := Nat.length_toDigits_pos
    have hlower' : 10 ^ (digitCount (num / den) - 1) * den ≤ num :=
      (Nat.le_div_iff_mul_le hden).mp hlower
    have hupper' : num < 10 ^ digitCount (num / den) * den :=
      (Nat.div_lt_iff_lt_mul hden).mp hupper
    rw [le_div_iff₀ hden', div_lt_iff₀ hden',
      show (digitCount (num / den) : Int) - 1 = ((digitCount (num / den) - 1 : Nat) : Int) by omega,
      zpow_natCast, zpow_natCast]
    exact ⟨by exact_mod_cast hlower', by exact_mod_cast hupper'⟩
  · -- Below one the order counts the zeros behind the point.
    rename_i hgt
    have hquotient : 0 < (den - 1) / num := Nat.div_pos (by omega) hnum
    obtain ⟨hlower, hupper⟩ := digitCount_spec hquotient
    have hcount : 0 < digitCount ((den - 1) / num) := Nat.length_toDigits_pos
    generalize digitCount ((den - 1) / num) = count at *
    have hlower' : 10 ^ (count - 1) * num ≤ den - 1 := (Nat.le_div_iff_mul_le hnum).mp hlower
    have hupper' : den - 1 < 10 ^ count * num := (Nat.div_lt_iff_lt_mul hnum).mp hupper
    have hlow : (10 : ℚ) ^ (count - 1) * num < den := by exact_mod_cast (by omega)
    have hhigh : (den : ℚ) ≤ 10 ^ count * num := by exact_mod_cast (by omega)
    rw [le_div_iff₀ hden', div_lt_iff₀ hden', show (1 : Int) - count - 1 = -(count : Int) by omega,
      show (1 : Int) - count = -((count - 1 : Nat) : Int) by omega, zpow_neg, zpow_neg,
      zpow_natCast, zpow_natCast, inv_mul_le_iff₀ (by positivity), lt_inv_mul_iff₀ (by positivity)]
    exact ⟨hhigh, hlow⟩

/-! ## Section 4: Grids -/

/-- The gaps around a magnitude, compared with its size, in any unit. -/
private theorem gaps_wide {significand unit before here after : Nat} (hunit : 0 < unit)
    (hlt : significand < 2 * twoPow 52) (hhere : here = significand * unit)
    (hafter : here + unit ≤ after)
    (hbefore : before + unit = here ∨
      (significand = twoPow 52 ∧ 2 * before + unit = 2 * here)) :
    2 * here < (after - before) * tenPow 16 := by
  have hpow : twoPow 52 = 4503599627370496 := rfl
  have hten : tenPow 16 = 10000000000000000 := rfl
  rw [hpow] at hlt hbefore
  rw [hten]
  have hsize : here + unit ≤ 2 * 4503599627370496 * unit := by
    have hmul := Nat.mul_le_mul_right unit hlt
    rw [Nat.succ_mul, ← hhere] at hmul
    exact hmul
  -- At a change of the exponent the lower gap is half a unit only, but there
  -- the significand is half of the greatest.
  rcases hbefore with hbefore | ⟨hedge, hbefore⟩
  · have hgap : 2 * unit ≤ after - before := by
      clear hsize hhere hlt
      omega
    generalize after - before = gap at *
    linarith
  · have hgap : 3 * unit ≤ 2 * (after - before) := by
      clear hsize hhere hlt
      omega
    rw [hedge] at hhere
    generalize after - before = gap at *
    linarith

/-- Seventeen digits tell a magnitude from its neighbours. -/
theorem spacing_wide {rank : Nat} (hpos : 0 < rank) :
    2 * units rank < (units (rank + 1) - units (rank - 1)) * tenPow 16 := by
  obtain ⟨shift, significand, rfl, hlt, hnormal⟩ := Binary64.exists_shift rank
  have hsignificand : 0 < significand := by
    rcases hnormal with hlarge | hshift
    · exact Nat.lt_of_lt_of_le (Binary64.twoPow_pos 52) hlarge
    · rw [hshift] at hpos
      omega
  have hbefore := Binary64.units_pred hsignificand hlt.le hnormal
  exact gaps_wide (Binary64.twoPow_pos shift) hlt (Binary64.units_eq hlt.le hnormal)
    (Binary64.units_succ_ge hlt.le hnormal) (hbefore.imp_right fun h => ⟨h.1, h.2.2⟩)

/-- The step of a grid, to the denominator of the grid. -/
def gridStep (exponent : Int) : Nat := tenPow exponent.toNat * (2 * unitsPerOne)

theorem gridStep_pos (exponent : Int) : 0 < gridStep exponent :=
  Nat.mul_pos (tenPow_pos _) (Nat.mul_pos (by decide) unitsPerOne_pos)

/-- A point of a grid rounds to a rank when it lies between the ends of the
    interval, brought to the denominator of the grid. -/
theorem rounds_point_iff {rank n : Nat} {exponent : Int} :
    Rounds (Decimal.inUnits ⟨n, exponent⟩) rank ↔
      (units (rank - 1) + units rank) * tenPow (-exponent).toNat ≤ n * gridStep exponent ∧
        n * gridStep exponent ≤
          (units rank + units (rank + 1)) * tenPow (-exponent).toNat ∧
        (rank % 2 = 1 →
          (units (rank - 1) + units rank) * tenPow (-exponent).toNat < n * gridStep exponent ∧
            n * gridStep exponent <
              (units rank + units (rank + 1)) * tenPow (-exponent).toNat) := by
  have hcast : Decimal.inUnits ⟨n, exponent⟩ =
      ((n * tenPow exponent.toNat * unitsPerOne : Nat) : ℚ) / tenPow (-exponent).toNat := by
    rw [inUnits_eq_div, Nat.cast_mul (n * _)]
  have hdouble : 2 * (n * tenPow exponent.toNat * unitsPerOne) = n * gridStep exponent := by
    unfold gridStep
    ring
  rw [hcast, Binary64.rounds_div_iff (tenPow_pos _), hdouble]

/-- What is picked of two points that may fit. -/
private theorem pick_cases {p q nearer : Prop} [Decidable p] [Decidable q] [Decidable nearer]
    (below above : Nat) (exponent : Int) :
    let picked : Option Decimal :=
      if p ∧ q then some ⟨if nearer then below else above, exponent⟩
      else if p then some ⟨below, exponent⟩
      else if q then some ⟨above, exponent⟩
      else none
    (picked = some ⟨below, exponent⟩ ∧ p) ∨ (picked = some ⟨above, exponent⟩ ∧ q) ∨
      (picked = none ∧ ¬ p ∧ ¬ q) := by
  intro picked
  by_cases hp : p
  · by_cases hq : q
    · by_cases hnearer : nearer
      · exact Or.inl ⟨by simp only [picked, hp, hq, hnearer, and_self, if_true], hp⟩
      · exact Or.inr (Or.inl
          ⟨by simp only [picked, hp, hq, hnearer, and_self, if_true, if_false], hq⟩)
    · exact Or.inl ⟨by simp only [picked, hp, hq, and_false, if_true, if_false], hp⟩
  · by_cases hq : q
    · exact Or.inr (Or.inl ⟨by simp only [picked, hp, hq, false_and, if_true, if_false], hq⟩)
    · exact Or.inr (Or.inr
        ⟨by simp only [picked, hp, hq, false_and, if_false], hp, hq⟩)

section Points

variable (tie : TieRule) (rank : Nat) (exponent : Int)

/-- The last point of a grid up to a magnitude. -/
def pointBelow : Nat := 2 * units rank * tenPow (-exponent).toNat / gridStep exponent

/-- The point below is not too low to round to the magnitude. -/
def FitsBelow : Prop :=
  (units (rank - 1) + units rank) * tenPow (-exponent).toNat <
      pointBelow rank exponent * gridStep exponent ∨
    (rank % 2 = 0 ∧ (units (rank - 1) + units rank) * tenPow (-exponent).toNat =
      pointBelow rank exponent * gridStep exponent)

/-- The point above is not too high to round to the magnitude. -/
def FitsAbove : Prop :=
  (pointBelow rank exponent + 1) * gridStep exponent <
      (units rank + units (rank + 1)) * tenPow (-exponent).toNat ∨
    (rank % 2 = 0 ∧ (pointBelow rank exponent + 1) * gridStep exponent =
      (units rank + units (rank + 1)) * tenPow (-exponent).toNat)

instance : Decidable (FitsBelow rank exponent) :=
  inferInstanceAs (Decidable (_ ∨ (_ ∧ _)))

instance : Decidable (FitsAbove rank exponent) :=
  inferInstanceAs (Decidable (_ ∨ (_ ∧ _)))

/-- Of the two points next to a magnitude one that fits is taken, if there
    is one. -/
theorem onGrid_cases :
    (onGrid tie rank exponent = some ⟨pointBelow rank exponent, exponent⟩ ∧
        FitsBelow rank exponent) ∨
      (onGrid tie rank exponent = some ⟨pointBelow rank exponent + 1, exponent⟩ ∧
        FitsAbove rank exponent) ∨
      (onGrid tie rank exponent = none ∧ ¬ FitsBelow rank exponent ∧
        ¬ FitsAbove rank exponent) := by
  unfold onGrid FitsBelow FitsAbove pointBelow gridStep
  generalize unitsPerOne = one
  exact pick_cases _ _ _

variable {tie rank exponent}

theorem pointBelow_spec :
    pointBelow rank exponent * gridStep exponent ≤ 2 * units rank * tenPow (-exponent).toNat ∧
      2 * units rank * tenPow (-exponent).toNat <
        (pointBelow rank exponent + 1) * gridStep exponent :=
  ⟨Nat.div_mul_le_self _ _, (Nat.div_lt_iff_lt_mul (gridStep_pos exponent)).mp (Nat.lt_succ_self _)⟩

theorem FitsBelow.rounds (h : FitsBelow rank exponent) :
    Rounds (Decimal.inUnits ⟨pointBelow rank exponent, exponent⟩) rank := by
  obtain ⟨hpoint, _⟩ := @pointBelow_spec rank exponent
  have hmost : 2 * units rank * tenPow (-exponent).toNat <
      (units rank + units (rank + 1)) * tenPow (-exponent).toNat := by
    have hsucc := Binary64.units_lt_succ rank
    exact Nat.mul_lt_mul_of_pos_right (by omega) (tenPow_pos _)
  unfold FitsBelow at h
  rw [rounds_point_iff]
  refine ⟨by omega, by omega, ?_⟩
  intro hodd
  exact ⟨by omega, by omega⟩

theorem FitsAbove.rounds (h : FitsAbove rank exponent) :
    Rounds (Decimal.inUnits ⟨pointBelow rank exponent + 1, exponent⟩) rank := by
  obtain ⟨_, hpoint⟩ := @pointBelow_spec rank exponent
  have hleast : (units (rank - 1) + units rank) * tenPow (-exponent).toNat ≤
      2 * units rank * tenPow (-exponent).toNat := by
    have hpred : units (rank - 1) ≤ units rank := Binary64.units_strictMono.monotone (by omega)
    exact Nat.mul_le_mul_right _ (by omega)
  unfold FitsAbove at h
  rw [rounds_point_iff]
  refine ⟨by omega, by omega, ?_⟩
  intro hodd
  exact ⟨by omega, by omega⟩

/-- What is found on a grid is a point next to the magnitude and rounds to
    its rank. -/
theorem onGrid_eq_some {d : Decimal} (h : onGrid tie rank exponent = some d) :
    Rounds d.inUnits rank ∧ d.exponent = exponent ∧
      d.coefficient ≤ pointBelow rank exponent + 1 := by
  rcases onGrid_cases tie rank exponent with
    ⟨hgrid, hfits⟩ | ⟨hgrid, hfits⟩ | ⟨hgrid, -, -⟩
  · have hpoint := hfits.rounds
    rw [hgrid, Option.some.injEq] at h
    generalize pointBelow rank exponent = point at *
    subst h
    exact ⟨hpoint, rfl, Nat.le_succ _⟩
  · have hpoint := hfits.rounds
    rw [hgrid, Option.some.injEq] at h
    generalize pointBelow rank exponent = point at *
    subst h
    exact ⟨hpoint, rfl, Nat.le_refl _⟩
  · rw [hgrid] at h
    cases h

/-- A grid whose step is smaller than the distance of the neighbours has a
    point in the interval. -/
theorem onGrid_isSome (hwide : gridStep exponent <
    (units (rank + 1) - units (rank - 1)) * tenPow (-exponent).toNat) :
    (onGrid tie rank exponent).isSome := by
  rcases onGrid_cases tie rank exponent with ⟨hgrid, -⟩ | ⟨hgrid, -⟩ | ⟨-, hbelow, habove⟩
  · rw [hgrid, Option.isSome_some]
  · rw [hgrid, Option.isSome_some]
  · -- The points next to the magnitude lie on both sides of the interval, so
    -- the step between them is wider than it.
    exfalso
    unfold FitsBelow at hbelow
    unfold FitsAbove at habove
    rw [Nat.add_mul] at habove hbelow
    rw [Nat.sub_mul] at hwide
    rw [Nat.add_mul] at habove
    omega

/-- The walk ends at the first grid that has a point, or before. -/
theorem firstOnGrids_eq_some {fuel count : Nat} (hlt : count < fuel)
    (hfound : (onGrid tie rank (exponent - count)).isSome) :
    ∃ d index, firstOnGrids tie rank fuel exponent = some d ∧ index ≤ count ∧
      onGrid tie rank (exponent - (index : Nat)) = some d := by
  -- By induction on the grids that are left; `count` of them lie before the
  -- one that is known to have a point.
  induction fuel generalizing count exponent with
  | zero => omega
  | succ fuel ih =>
    cases hhere : onGrid tie rank exponent with
    | some d =>
      have hsame : exponent - ((0 : Nat) : Int) = exponent := by omega
      refine ⟨d, 0, ?_, Nat.zero_le _, ?_⟩
      · rw [firstOnGrids, hhere, Option.orElse_some]
      · rw [hsame, hhere]
    | none =>
      cases count with
      | zero =>
        have hsame : exponent - ((0 : Nat) : Int) = exponent := by omega
        rw [hsame, hhere] at hfound
        cases hfound
      | succ count =>
        have hnext : exponent - (count + 1 : Nat) = exponent - 1 - (count : Int) := by omega
        rw [hnext] at hfound
        obtain ⟨d, index, hd, hindex, hgrid⟩ := ih (by omega) hfound
        have hsame : exponent - (index + 1 : Nat) = exponent - 1 - (index : Int) := by omega
        refine ⟨d, index + 1, ?_, by omega, ?_⟩
        · rw [firstOnGrids, hhere, Option.orElse_none, hd]
        · rw [hsame, hgrid]

end Points

/-! ## Section 5: Seventeen digits -/

/-- The grid of seventeen digits has a point that rounds to the magnitude. -/
theorem onGrid_isSome_seventeen (tie : TieRule) {rank : Nat} (hpos : 0 < rank) :
    (onGrid tie rank (orderOfRatio (units rank) unitsPerOne - 1 - (16 : Nat))).isSome := by
  have hhere : 0 < units rank := Binary64.units_pos hpos
  have hunit : (0 : ℚ) < unitsPerOne := by exact_mod_cast unitsPerOne_pos
  obtain ⟨hlower, -⟩ := orderOfRatio_spec hhere unitsPerOne_pos
  rw [le_div_iff₀ hunit] at hlower
  generalize orderOfRatio (units rank) unitsPerOne - 1 = top at *
  have hwide : (2 * units rank : ℚ) < (units (rank + 1) - units (rank - 1) : Nat) * 10 ^ 16 := by
    exact_mod_cast spacing_wide hpos
  apply onGrid_isSome
  -- In the units of the magnitudes the step is the sixteenth part in tens.
  have hstep : (10 : ℚ) ^ (top - (16 : Nat)) * 10 ^ 16 = 10 ^ top := by
    rw [← zpow_natCast, ← zpow_add₀ (by norm_num), Nat.cast_ofNat, Int.sub_add_cancel]
  have hless : (10 : ℚ) ^ (top - (16 : Nat)) * (2 * unitsPerOne) <
      (units (rank + 1) - units (rank - 1) : Nat) := by
    have hscaled :
        (10 : ℚ) ^ (top - (16 : Nat)) * (2 * unitsPerOne) * 10 ^ 16 ≤ 2 * units rank := by
      calc (10 : ℚ) ^ (top - (16 : Nat)) * (2 * unitsPerOne) * 10 ^ 16
          = 2 * ((10 : ℚ) ^ (top - (16 : Nat)) * 10 ^ 16 * unitsPerOne) := by ring
        _ = 2 * ((10 : ℚ) ^ top * unitsPerOne) := by rw [hstep]
        _ ≤ 2 * units rank := by linarith
    exact lt_of_mul_lt_mul_right (hscaled.trans_lt hwide) (by positivity)
  have hscale : (0 : ℚ) < tenPow (-(top - (16 : Nat))).toNat := by exact_mod_cast tenPow_pos _
  rw [zpow_eq_div, div_mul_eq_mul_div, div_lt_iff₀ hscale] at hless
  unfold gridStep
  exact_mod_cast hless

/-- A point next to the magnitude has at most one digit more than the grid
    is steps finer than its order. -/
theorem pointBelow_lt {rank index : Nat} (hpos : 0 < rank) :
    pointBelow rank (orderOfRatio (units rank) unitsPerOne - 1 - index) < 10 ^ (index + 1) := by
  have hhere : 0 < units rank := Binary64.units_pos hpos
  have hunit : (0 : ℚ) < unitsPerOne := by exact_mod_cast unitsPerOne_pos
  obtain ⟨-, hupper⟩ := orderOfRatio_spec hhere unitsPerOne_pos
  rw [div_lt_iff₀ hunit] at hupper
  generalize orderOfRatio (units rank) unitsPerOne = order at *
  obtain ⟨hpoint, -⟩ := @pointBelow_spec rank (order - 1 - index)
  generalize pointBelow rank (order - 1 - index) = point at *
  have hscale : (0 : ℚ) < tenPow (-(order - 1 - index)).toNat := by exact_mod_cast tenPow_pos _
  have hstep : (0 : ℚ) < (10 : ℚ) ^ (order - 1 - index) * unitsPerOne :=
    mul_pos (zpow_pos (by norm_num) _) hunit
  have hle : point * ((10 : ℚ) ^ (order - 1 - index) * unitsPerOne) ≤ units rank := by
    have hcast : (point : ℚ) * (tenPow (order - 1 - index).toNat * (2 * unitsPerOne)) ≤
        2 * units rank * tenPow (-(order - 1 - index)).toNat := by
      unfold gridStep at hpoint
      exact_mod_cast hpoint
    rw [zpow_eq_div, div_mul_eq_mul_div, mul_div_assoc', div_le_iff₀ hscale]
    linarith only [hcast]
  have hpower : (10 : ℚ) ^ order = 10 ^ (index + 1) * 10 ^ (order - 1 - index) := by
    have hsum : ((index + 1 : Nat) : Int) + (order - 1 - index) = order := by omega
    rw [← zpow_natCast, ← zpow_add₀ (by norm_num), hsum]
  have hlt : (point : ℚ) < 10 ^ (index + 1) := by
    refine lt_of_mul_lt_mul_right (hle.trans_lt ?_) hstep.le
    rw [← mul_assoc, ← hpower]
    exact hupper
  exact_mod_cast hlt

theorem trim_value (d : Decimal) : d.trim.value = d.value := by
  fun_induction trim d with
  | case1 d hzero ih =>
    obtain ⟨-, hten⟩ := hzero
    obtain ⟨part, hpart⟩ := Nat.dvd_of_mod_eq_zero hten
    rw [ih]
    unfold value
    rw [hpart, Nat.mul_div_cancel_left part (by decide), zpow_add₀ (by norm_num)]
    push_cast
    ring
  | case2 d hdone => rfl

theorem trim_coefficient_le (d : Decimal) : d.trim.coefficient ≤ d.coefficient := by
  fun_induction trim d with
  | case1 d hzero ih => exact ih.trans (Nat.div_le_self _ _)
  | case2 d hdone => exact Nat.le_refl _

/-- After trimming the last digit is not a zero. -/
theorem trim_mod (d : Decimal) (hpos : d.trim.coefficient ≠ 0) : d.trim.coefficient % 10 ≠ 0 := by
  fun_induction trim d with
  | case1 d hzero ih => exact ih hpos
  | case2 d hdone =>
    intro hten
    exact hdone ⟨hpos, hten⟩

/-- The shortest decimal of a magnitude rounds to the magnitude, whatever the
    rule for ties, and has at most seventeen digits. -/
theorem shortest_spec (tie : TieRule) {rank : Nat} (hpos : 0 < rank) :
    Rounds (shortest tie rank).inUnits rank ∧ 0 < (shortest tie rank).coefficient ∧
      (shortest tie rank).coefficient % 10 ≠ 0 ∧
      (shortest tie rank).coefficient < 10 ^ 17 := by
  obtain ⟨d, index, hwalk, hindex, hgrid⟩ :=
    firstOnGrids_eq_some (by decide : 16 < 17) (onGrid_isSome_seventeen tie hpos)
  have hshortest : shortest tie rank = d.trim := by
    unfold shortest
    dsimp only
    rw [hwalk, Option.getD_some]
  obtain ⟨hrounds, -, hcoefficient⟩ := onGrid_eq_some hgrid
  have hpoint :
      pointBelow rank (orderOfRatio (units rank) unitsPerOne - 1 - index) < 10 ^ (index + 1) :=
    pointBelow_lt hpos
  have hpower : 10 ^ (index + 1) ≤ 10 ^ 17 := Nat.pow_le_pow_right (by decide) (by omega)
  have htrim := d.trim_coefficient_le
  rw [← inUnits_eq_of_value_eq d.trim_value] at hrounds
  have hne : d.trim.coefficient ≠ 0 := by
    intro hzero
    have hvalue : d.trim.inUnits = 0 := by
      rw [inUnits, value, hzero, Nat.cast_zero, zero_mul, zero_mul]
    have hrank := rank_eq_zero_of_lt hrounds (by rw [hvalue]; norm_num)
    omega
  have hlast := d.trim_mod hne
  rw [hshortest]
  refine ⟨hrounds, Nat.pos_of_ne_zero hne, hlast, ?_⟩
  -- The coefficient `10 ^ 17` itself would have been trimmed.
  have hle : d.trim.coefficient ≤ 10 ^ 17 := by omega
  refine lt_of_le_of_ne hle ?_
  intro heq
  rw [heq] at hlast
  exact hlast rfl

/-- Where the point stands in the shortest decimal of a finite magnitude. -/
theorem shortest_order (tie : TieRule) {rank : Nat} (hpos : 0 < rank)
    (hlt : rank < Binary64.rankCount) :
    -330 < (digitCount (shortest tie rank).coefficient : Int) + (shortest tie rank).exponent ∧
      (digitCount (shortest tie rank).coefficient : Int) + (shortest tie rank).exponent ≤ 310 := by
  obtain ⟨hrounds, hcoefficient, -, -⟩ := shortest_spec tie hpos
  refine ⟨?_, order_le_of_rank_lt hcoefficient hrounds hlt⟩
  by_contra hsmall
  have hzero := rank_eq_zero_of_order_le hcoefficient hrounds (by omega)
  omega

end Decimal
end CondExpr
