import CondExpr.Number.Binary64

/-! # Decimal numerals

  A decimal is a natural coefficient times a power of ten. This module
  rounds decimals to doubles and finds, for a double, the shortest decimal
  that rounds back to it.

  - `Decimal.toBinary64` is correctly rounded, whatever the exponent.
  - `Decimal.shortest` walks the decimal grids from coarse to fine and
    takes, on the first grid that has a point in the rounding interval,
    the point nearest to the double.
-/

namespace CondExpr

/-- The number `coefficient * 10 ^ exponent`. -/
structure Decimal where
  coefficient : Nat
  exponent : Int
  deriving DecidableEq, Repr

namespace Decimal

/-! ## Section 1: Rounding to a double -/

/-- How many decimal digits a natural number is written with. -/
def digitCount (n : Nat) : Nat := (Nat.toDigits 10 n).length

/-- The nearest double, half to even, with the given sign. With the point
    more than 310 digits to the right the magnitude overflows, and more
    than 330 digits to the left it rounds to zero; in between the fraction
    is formed and rounded exactly. -/
def toBinary64 (negative : Bool) (d : Decimal) : Binary64 :=
  let order := (digitCount d.coefficient : Int) + d.exponent
  if d.coefficient = 0 ∨ order < -330 then .signedZero negative
  else if order > 310 then .infinite negative
  else .ofRatio negative (d.coefficient * tenPow d.exponent.toNat) (tenPow (-d.exponent).toNat)

/-! ## Section 2: The shortest decimal -/

/-- Which way to go when two shortest decimals are equally near. -/
inductive TieRule where
  /-- The one of larger magnitude. -/
  | away
  /-- The one whose last digit is even. -/
  | even
  deriving DecidableEq, Repr

/-- The place of the point in `num / den`: the `k` with
    `10 ^ (k - 1) ≤ num / den < 10 ^ k`, for a positive fraction. -/
def orderOfRatio (num den : Nat) : Int :=
  if den ≤ num then digitCount (num / den)
  else 1 - (digitCount ((den - 1) / num) : Int)

/-- Drops the zeros at the end of the coefficient. -/
def trim (d : Decimal) : Decimal :=
  if h : d.coefficient ≠ 0 ∧ d.coefficient % 10 = 0 then
    trim ⟨d.coefficient / 10, d.exponent + 1⟩
  else d
termination_by d.coefficient
decreasing_by omega

/-- The point of the grid of step `10 ^ exponent` that lies in the rounding
    interval of a rank and is nearest to its magnitude, if there is one.

    The interval ends halfway to the two neighbouring magnitudes, and the
    ends belong to it iff the rank is even. The three numbers `least`,
    `exact` and `most` are its ends and its middle, and `step` is the step
    of the grid, all to one denominator. -/
def onGrid (tie : TieRule) (rank : Nat) (exponent : Int) : Option Decimal :=
  let scale := tenPow (-exponent).toNat
  let step := tenPow exponent.toNat * (2 * Binary64.unitsPerOne)
  let here := Binary64.units rank
  let least := (Binary64.units (rank - 1) + here) * scale
  let exact := 2 * here * scale
  let most := (here + Binary64.units (rank + 1)) * scale
  -- The two points of the grid next to the magnitude.
  let below := exact / step
  let above := below + 1
  let closed := rank % 2 = 0
  let belowFits := least < below * step ∨ (closed ∧ least = below * step)
  let aboveFits := above * step < most ∨ (closed ∧ above * step = most)
  let toBelow := exact - below * step
  let toAbove := above * step - exact
  if belowFits ∧ aboveFits then
    -- The nearer one, or what the rule says.
    let takeBelow := toBelow < toAbove ∨
      (toBelow = toAbove ∧ tie = .even ∧ below % 2 = 0)
    some ⟨if takeBelow then below else above, exponent⟩
  else if belowFits then some ⟨below, exponent⟩
  else if aboveFits then some ⟨above, exponent⟩
  else none

/-- The first of at most `fuel` grids, from the step `10 ^ exponent` down,
    that has a point in the rounding interval of the rank. -/
def firstOnGrids (tie : TieRule) (rank : Nat) : Nat → Int → Option Decimal
  | 0, _ => none
  | fuel + 1, exponent =>
    (onGrid tie rank exponent).orElse fun _ => firstOnGrids tie rank fuel (exponent - 1)

/-- The decimal with the fewest digits among those that round to the
    magnitude of the rank, and of these the nearest to it. Seventeen digits
    are always enough. -/
def shortest (tie : TieRule) (rank : Nat) : Decimal :=
  let order := orderOfRatio (Binary64.units rank) Binary64.unitsPerOne
  ((firstOnGrids tie rank 17 (order - 1)).getD ⟨0, 0⟩).trim

end Decimal
end CondExpr
