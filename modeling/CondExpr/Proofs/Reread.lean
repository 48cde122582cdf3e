import CondExpr.Proofs.Compact
import CondExpr.Value.Encoding

/-! # Numbers that text keeps

  A number in JSON text is read in two steps: its digits are rounded to a
  double, and that is divided or multiplied by a power of ten. When the
  digits are few enough to be a double themselves, and the power of ten is
  one, only one rounding is left. Then the double is found again that was
  written. With more digits the second rounding can miss it.
-/

namespace CondExpr

open Binary64 (Rounds units unitsPerOne rankOfRatio)

/-! ## Section 1: Whole numbers that are doubles -/

namespace Binary64

/-- A significand of 53 bits and a power of two make a magnitude. -/
theorem exists_units_eq {significand : Nat} (hle : significand ≤ 2 * twoPow 52) (shift : Nat) :
    ∃ rank, units rank = significand * twoPow shift := by
  induction shift generalizing significand with
  | zero => exact ⟨_, units_eq hle (.inr rfl)⟩
  | succ shift ih =>
    by_cases hnormal : twoPow 52 ≤ significand
    · exact ⟨_, units_eq hle (.inl hnormal)⟩
    · obtain ⟨rank, hunits⟩ := ih (show 2 * significand ≤ 2 * twoPow 52 by omega)
      have hpows : twoPow (shift + 1) = 2 * twoPow shift := Nat.pow_succ'
      refine ⟨rank, ?_⟩
      rw [hunits, hpows]
      ring

theorem twoPow_add (m n : Nat) : twoPow (m + n) = twoPow m * twoPow n := Nat.pow_add 2 m n

theorem twoPow_lt {m n : Nat} (hlt : m < n) : twoPow m < twoPow n :=
  Nat.pow_lt_pow_right (by decide) hlt

theorem tenPow_le {m n : Nat} (hle : m ≤ n) : tenPow m ≤ tenPow n :=
  Nat.pow_le_pow_right (by decide) hle

/-- The whole number is a double. -/
def IsWhole (n : Nat) : Prop := units (rankOfRatio n 1) = n * unitsPerOne

theorem isWhole_of_le {significand shift : Nat} (hle : significand ≤ 2 * twoPow 52) :
    IsWhole (significand * twoPow shift) := by
  obtain ⟨rank, hunits⟩ := exists_units_eq hle (shift + 1074)
  have hpows : twoPow (shift + 1074) = twoPow shift * unitsPerOne := twoPow_add shift 1074
  have hexact : units rank = significand * twoPow shift * unitsPerOne := by
    rw [hunits, hpows, Nat.mul_assoc]
  have hrank : rankOfRatio (significand * twoPow shift) 1 = rank := by
    rw [rankOfRatio_eq_iff Nat.one_pos, Nat.cast_one, div_one, ← Nat.cast_mul, ← hexact]
    exact .self rank
  rw [IsWhole, hrank, hexact]

/-- The powers of ten up to the 22nd are doubles. -/
theorem isWhole_tenPow {power : Nat} (hle : power ≤ 22) : IsWhole (tenPow power) := by
  have hsplit : tenPow power = 5 ^ power * twoPow power := Nat.mul_pow 5 2 power
  have hfives : 5 ^ power ≤ 2 * twoPow 52 :=
    (Nat.pow_le_pow_right (by decide) hle).trans (by decide)
  rw [hsplit]
  exact isWhole_of_le hfives

end Binary64

/-! ## Section 2: One rounding -/

namespace Json

section

variable {a b rank : Nat}

/-- A quotient of whole numbers that are doubles is rounded once. -/
theorem overRank_eq (ha : Binary64.IsWhole a) (hb : Binary64.IsWhole b) (hpos : 0 < b)
    (h : Rounds ((a : ℚ) * unitsPerOne / b) rank) :
    overRank (rankOfRatio a 1) (rankOfRatio b 1) = rank := by
  have hunit : (unitsPerOne : ℚ) ≠ 0 := Nat.cast_ne_zero.mpr Decimal.unitsPerOne_pos.ne'
  have hquotient : ((a * unitsPerOne : Nat) : ℚ) * unitsPerOne / (b * unitsPerOne : Nat) =
      (a : ℚ) * unitsPerOne / b := by
    push_cast
    exact mul_div_mul_right _ _ hunit
  unfold overRank
  rw [ha, hb, Binary64.rankOfRatio_eq_iff (Nat.mul_pos hpos Decimal.unitsPerOne_pos), hquotient]
  exact h

/-- A product of whole numbers that are doubles is rounded once. -/
theorem timesRank_eq (ha : Binary64.IsWhole a) (hb : Binary64.IsWhole b)
    (h : Rounds ((a : ℚ) * b * unitsPerOne) rank) :
    timesRank (rankOfRatio a 1) (rankOfRatio b 1) = rank := by
  have hunit : (unitsPerOne : ℚ) ≠ 0 := Nat.cast_ne_zero.mpr Decimal.unitsPerOne_pos.ne'
  have hproduct : ((a * unitsPerOne * (b * unitsPerOne) : Nat) : ℚ) * unitsPerOne /
      (unitsPerOne * unitsPerOne : Nat) = (a : ℚ) * b * unitsPerOne := by
    push_cast
    field_simp
  unfold timesRank
  rw [ha, hb, Binary64.rankOfRatio_eq_iff
    (Nat.mul_pos Decimal.unitsPerOne_pos Decimal.unitsPerOne_pos), hproduct]
  exact h

/-- Digits that are a double, with the point at most 22 places away, are read
    as the double nearest to them. -/
theorem ofParts?_eq {d : Decimal} {rank : Fin Binary64.rankCount} (negative : Bool)
    (hwhole : Binary64.IsWhole d.coefficient) (hplaces : d.exponent.natAbs ≤ 22)
    (h : Rounds d.inUnits rank.val) :
    ofParts? negative d.coefficient d.exponent = some (.finite negative rank) := by
  rw [Decimal.inUnits_eq_div] at h
  have hrank : (if d.exponent < 0 then
        scaleDown (rankOfRatio d.coefficient 1) d.exponent.natAbs
      else if d.exponent ≤ greatestPower then
        timesRank (rankOfRatio d.coefficient 1) (powerRank d.exponent.toNat)
      else if d.coefficient = 0 then 0
      else Binary64.rankCount) = rank.val := by
    -- A power of ten divides or multiplies, by the sign of the exponent.
    by_cases hneg : d.exponent < 0
    · have hnat : d.exponent.toNat = 0 := by omega
      have hplace : (-d.exponent).toNat = d.exponent.natAbs := by omega
      have hone : tenPow 0 = 1 := rfl
      rw [hnat, hplace, hone, Nat.mul_one] at h
      rw [if_pos hneg, scaleDown, if_pos (hplaces.trans (by decide))]
      exact overRank_eq hwhole (Binary64.isWhole_tenPow hplaces) (Decimal.tenPow_pos _) h
    · have hnat : d.exponent.toNat ≤ 22 := by omega
      have hmost : d.exponent ≤ greatestPower := by
        have hgreatest : greatestPower = 308 := rfl
        rw [hgreatest]
        omega
      have hplace : (-d.exponent).toNat = 0 := by omega
      have hone : tenPow 0 = 1 := rfl
      rw [hplace, hone, Nat.cast_one, div_one, Nat.cast_mul] at h
      rw [if_neg hneg, if_pos hmost]
      exact timesRank_eq hwhole (Binary64.isWhole_tenPow hnat) h
  unfold ofParts?
  simp only [hrank]
  exact dif_pos rank.isLt

end

/-! ## Section 3: Doubles with few digits -/

/-- The digits that are written for the double make a whole number of at most
    53 bits, and the point is at most 22 places away from them. -/
def FewDigits : Binary64 → Prop
  | .finite _ rank =>
    (Binary64.dataDecimal rank).coefficient ≤ 2 * twoPow 52 ∧
      (Binary64.dataDecimal rank).exponent.natAbs ≤ 22
  | _ => False

/-- A double with few digits is found again. -/
theorem reread_of_fewDigits {x : Binary64} (h : FewDigits x) : Reread x := by
  obtain _ | _ | ⟨negative, rank⟩ := x
  · cases h
  · cases h
  obtain ⟨hwhole, hplaces⟩ := h
  obtain ⟨n, -, hdecimal, hrounds, -, -⟩ := Binary64.exists_numeral rank.isLt
  rw [hdecimal] at hrounds
  have hdouble : Binary64.IsWhole (Binary64.dataDecimal rank).coefficient := by
    have hone : Binary64.IsWhole ((Binary64.dataDecimal rank).coefficient * twoPow 0) :=
      Binary64.isWhole_of_le hwhole
    rwa [show twoPow 0 = 1 from rfl, Nat.mul_one] at hone
  rw [reread_iff, digitsRead, ofParts?_eq negative hdouble hplaces hrounds]

/-! ## Section 4: Doubles that are read at all -/

end Json

namespace Binary64

/-- Greater fractions have greater ranks. -/
theorem rankOfRatio_le {num den num' den' : Nat} (hden : 0 < den) (hden' : 0 < den')
    (hle : num * den' ≤ num' * den) : rankOfRatio num den ≤ rankOfRatio num' den' := by
  refine (rounds_rankOfRatio num hden).le_of_le (rounds_rankOfRatio num' hden') ?_
  have hunit : (0 : ℚ) ≤ unitsPerOne := Nat.cast_nonneg _
  have hcast : (num : ℚ) * den' ≤ num' * den := by exact_mod_cast hle
  rw [div_le_div_iff₀ (Nat.cast_pos.mpr hden) (Nat.cast_pos.mpr hden')]
  calc (num : ℚ) * unitsPerOne * den' = num * den' * unitsPerOne := by ring
    _ ≤ num' * den * unitsPerOne := mul_le_mul_of_nonneg_right hcast hunit
    _ = num' * unitsPerOne * den := by ring

theorem isWhole_twoPow (power : Nat) : IsWhole (twoPow power) := by
  have hone : IsWhole (1 * twoPow power) := isWhole_of_le (by decide)
  rwa [Nat.one_mul] at hone

theorem units_rankOfRatio_le {n power : Nat} (hle : n ≤ twoPow power) :
    units (rankOfRatio n 1) ≤ twoPow power * unitsPerOne := by
  have hrank : rankOfRatio n 1 ≤ rankOfRatio (twoPow power) 1 :=
    rankOfRatio_le Nat.one_pos Nat.one_pos (by omega)
  rw [← isWhole_twoPow power]
  exact units_strictMono.monotone hrank

/-- What is at most a power of two that is a double is rounded to one. -/
theorem lt_rankCount_of_units_le {rank power : Nat} (hpower : power ≤ 1023)
    (hle : units rank ≤ twoPow power * unitsPerOne) : rank < rankCount := by
  have hsum : twoPow (power + 1074) = twoPow power * unitsPerOne := twoPow_add power 1074
  have hlt : twoPow (power + 1074) < twoPow 2098 := twoPow_lt (by omega)
  rw [← units_strictMono.lt_iff_lt, Decimal.units_rankCount]
  exact Nat.lt_of_le_of_lt hle (hsum ▸ hlt)

end Binary64

namespace Json

/-- Division by one or more does not make a magnitude greater. -/
theorem overRank_le {a b : Nat} (hle : unitsPerOne ≤ units b) : overRank a b ≤ a := by
  have hpos : 0 < units b := Nat.lt_of_lt_of_le Decimal.unitsPerOne_pos hle
  refine (Binary64.rounds_rankOfRatio (units a) hpos).le_of_le (.self a) ?_
  rw [div_le_iff₀ (Nat.cast_pos.mpr hpos)]
  exact_mod_cast Nat.mul_le_mul_left (units a) hle

theorem unitsPerOne_le_powerRank (power : Nat) : unitsPerOne ≤ units (powerRank power) := by
  have hone : units (rankOfRatio (twoPow 0) 1) = twoPow 0 * unitsPerOne :=
    Binary64.isWhole_twoPow 0
  have hrank : rankOfRatio (twoPow 0) 1 ≤ powerRank power :=
    Binary64.rankOfRatio_le Nat.one_pos Nat.one_pos
      (Nat.mul_le_mul_right 1 (Nat.one_le_two_pow.trans (Nat.pow_le_pow_left (by decide) _)))
  rw [show twoPow 0 = 1 from rfl, Nat.one_mul] at hone
  rw [← hone]
  exact Binary64.units_strictMono.monotone hrank

theorem scaleDown_le (rank power : Nat) : scaleDown rank power ≤ rank := by
  induction rank, power using scaleDown.induct with
  | case1 rank power hsmall =>
    rw [scaleDown, if_pos hsmall]
    exact overRank_le (unitsPerOne_le_powerRank power)
  | case2 power hlarge =>
    rw [scaleDown, if_neg hlarge, if_pos rfl]
  | case3 rank power hlarge hpos ih =>
    rw [scaleDown, if_neg hlarge, if_neg hpos]
    exact ih.trans (overRank_le (unitsPerOne_le_powerRank greatestPower))

/-- A product of magnitudes is finite when powers of two above them are. -/
theorem timesRank_lt {a b p q : Nat} (ha : units a ≤ twoPow p * unitsPerOne)
    (hb : units b ≤ twoPow q * unitsPerOne) (hsum : p + q ≤ 1023) :
    timesRank a b < Binary64.rankCount := by
  have hmax := Binary64.lt_rankCount_of_units_le hsum (Binary64.isWhole_twoPow (p + q)).le
  have hpos : 0 < unitsPerOne * unitsPerOne :=
    Nat.mul_pos Decimal.unitsPerOne_pos Decimal.unitsPerOne_pos
  refine Nat.lt_of_le_of_lt (Binary64.rankOfRatio_le hpos Nat.one_pos ?_) hmax
  rw [Nat.mul_one, Binary64.twoPow_add]
  calc units a * units b ≤ twoPow p * unitsPerOne * (twoPow q * unitsPerOne) := Nat.mul_le_mul ha hb
    _ = twoPow p * twoPow q * (unitsPerOne * unitsPerOne) := Nat.mul_mul_mul_comm _ _ _ _

theorem rankOfRatio_zero {den : Nat} (hpos : 0 < den) : rankOfRatio 0 den = 0 := by
  rw [Binary64.rankOfRatio_eq_iff hpos, Nat.cast_zero, zero_mul, zero_div]
  exact .self 0

theorem timesRank_zero (b : Nat) : timesRank 0 b = 0 := by
  unfold timesRank
  rw [Binary64.units_zero, Nat.zero_mul]
  exact rankOfRatio_zero (Nat.mul_pos Decimal.unitsPerOne_pos Decimal.unitsPerOne_pos)

/-- The exponent of a number that the standard encoder takes is bounded. -/
theorem tenPow_le_of_rounds {d : Decimal} {rank : Nat} (hpos : 0 < d.coefficient)
    (hnonneg : 0 ≤ d.exponent) (h : Rounds d.inUnits rank) (hrank : rank ≤ Encoder.greatestRank) :
    tenPow d.exponent.toNat ≤ twoPow 430 := by
  have hplace : (-d.exponent).toNat = 0 := by omega
  have hone : tenPow 0 = 1 := rfl
  -- The encoder takes nothing from `10 ^ 126` on, and that is below `2 ^ 430`.
  have hgreatest : Encoder.greatestRank < rankOfRatio (twoPow 430) 1 := by decide +kernel
  have hnext : units (rank + 1) ≤ twoPow 430 * unitsPerOne := by
    rw [← Binary64.isWhole_twoPow]
    exact Binary64.units_strictMono.monotone (by omega)
  have hhere : units rank ≤ units (rank + 1) := (Binary64.units_lt_succ rank).le
  have hmost := h.le_most
  rw [Decimal.inUnits_eq_div, hplace, hone, Nat.cast_one, div_one] at hmost
  have hnat : 2 * (d.coefficient * tenPow d.exponent.toNat * unitsPerOne) ≤
      units rank + units (rank + 1) := by
    exact_mod_cast hmost
  have hproduct : d.coefficient * tenPow d.exponent.toNat * unitsPerOne ≤
      twoPow 430 * unitsPerOne := by
    omega
  have hcancel := Nat.le_of_mul_le_mul_right hproduct Decimal.unitsPerOne_pos
  exact (Nat.le_mul_of_pos_left _ hpos).trans hcancel

/-- Digits that fit the significand are read when they denote a number that
    the standard encoder takes. -/
theorem exists_ofParts? {d : Decimal} {rank : Nat} (negative : Bool)
    (hcoefficient : d.coefficient < significandLimit) (h : Rounds d.inUnits rank)
    (hrank : rank ≤ Encoder.greatestRank) :
    ∃ x, ofParts? negative d.coefficient d.exponent = some x := by
  have hstart : units (rankOfRatio d.coefficient 1) ≤ twoPow 64 * unitsPerOne :=
    Binary64.units_rankOfRatio_le hcoefficient.le
  have hlt : (if d.exponent < 0 then
        scaleDown (rankOfRatio d.coefficient 1) d.exponent.natAbs
      else if d.exponent ≤ greatestPower then
        timesRank (rankOfRatio d.coefficient 1) (powerRank d.exponent.toNat)
      else if d.coefficient = 0 then 0
      else Binary64.rankCount) < Binary64.rankCount := by
    by_cases hneg : d.exponent < 0
    · rw [if_pos hneg]
      exact Nat.lt_of_le_of_lt (scaleDown_le _ _)
        (Binary64.lt_rankCount_of_units_le (by decide) hstart)
    · rw [if_neg hneg]
      by_cases hzero : d.coefficient = 0
      · rw [if_pos hzero, hzero, rankOfRatio_zero Nat.one_pos, timesRank_zero, ite_self]
        exact Nat.mul_pos (by decide) (Binary64.twoPow_pos 52)
      · have hpower : tenPow d.exponent.toNat ≤ twoPow 430 :=
          tenPow_le_of_rounds (by omega) (by omega) h hrank
        have hmost : d.exponent ≤ greatestPower := by
          by_contra hgt
          have hle : tenPow 309 ≤ tenPow d.exponent.toNat := by
            have hgreatest : greatestPower = 308 := rfl
            rw [hgreatest] at hgt
            exact Binary64.tenPow_le (by omega)
          exact absurd (hle.trans hpower) (by decide +kernel)
        rw [if_pos hmost]
        exact timesRank_lt hstart (Binary64.units_rankOfRatio_le hpower) (by decide)
  refine ⟨.finite negative ⟨_, hlt⟩, ?_⟩
  unfold ofParts?
  exact dif_pos hlt

/-- A number that the standard encoder takes is read. -/
theorem exists_digitsRead {x : Binary64} {v : AttributeValue}
    (h : Encoder.encodeNumber x = .ok v) : ∃ y, digitsRead x = .ok (.real y) := by
  obtain _ | _ | ⟨negative, rank⟩ := x
  · cases h
  · cases h
  have hrank : rank.val ≤ Encoder.greatestRank := by
    by_contra hgt
    unfold Encoder.encodeNumber at h
    dsimp only at h
    rw [if_neg (by omega), if_pos (by omega)] at h
    cases h
  obtain ⟨n, -, hdecimal, hrounds, hcoefficient, -⟩ := Binary64.exists_numeral rank.isLt
  rw [hdecimal] at hrounds hcoefficient
  obtain ⟨y, hy⟩ := exists_ofParts? negative hcoefficient hrounds hrank
  exact ⟨y, by rw [digitsRead, hy]⟩

/-- The double that is read for a double that is written. -/
def rereadAs (x : Binary64) : Binary64 :=
  match digitsRead x with
  | .ok (.real y) => y
  | _ => x

theorem digitsRead_eq {x y : Binary64} (h : digitsRead x = .ok (.real y)) :
    digitsRead x = .ok (.real (rereadAs x)) := by
  rw [rereadAs, h]

end Json
end CondExpr
