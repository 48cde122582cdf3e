import CondExpr.Number.Power

/-! # Double-precision numbers

  The binary64 format as a mathematical type. A finite magnitude is named
  by its *rank*: the magnitudes, zero first, numbered in ascending order.
  The rank of a magnitude is also its 63-bit pattern, so

  - comparing magnitudes is comparing ranks,
  - the neighbours of a magnitude are the ranks before and after it,
  - a magnitude is even, in the sense of "ties to even", iff its rank is.

  Every finite double is a whole number of *units* of `2 ^ -1074`, the
  least positive magnitude. All rounding is done on exact fractions of
  natural numbers; nothing here goes through the machine's own floats.
-/

namespace CondExpr

/-- How many finite magnitudes there are: 2047 exponents of `2 ^ 52`
    significands each. -/
abbrev Binary64.rankCount : Nat := 2047 * twoPow 52

/-- A double. Zero has two signs; there is one NaN. -/
inductive Binary64 where
  /-- Not a number. -/
  | nan
  /-- An infinity of either sign. -/
  | infinite (negative : Bool)
  /-- A finite number: its sign and the rank of its magnitude. -/
  | finite (negative : Bool) (rank : Fin Binary64.rankCount)
  deriving DecidableEq, Repr

namespace Binary64

/-! ## Section 1: Magnitudes -/

/-- The magnitude of a rank, in units of `2 ^ -1074`. The first `2 ^ 53`
    ranks are one unit apart; from there on the spacing doubles with every
    `2 ^ 52` ranks. The rank after the last one denotes `2 ^ 1024`. -/
def units (rank : Nat) : Nat :=
  if rank < twoPow 52 then rank
  else (rank % twoPow 52 + twoPow 52) * twoPow (rank / twoPow 52 - 1)

/-- The unit, as the denominator of a fraction. -/
abbrev unitsPerOne : Nat := twoPow 1074

/-! ## Section 2: Rounding -/

/-- `num / den` to the nearest natural number, a half to the even one. -/
def roundHalfEven (num den : Nat) : Nat :=
  let quotient := num / den
  let rest := num % den
  if 2 * rest < den ∨ (2 * rest = den ∧ quotient % 2 = 0) then quotient
  else quotient + 1

/-- The rank of the magnitude nearest to `num / den`, a half to the even
    rank. The significand is rounded to 53 bits; when it carries into a
    54th, the sum below lands on the next exponent by itself. A result of
    `rankCount` or more means overflow. -/
def rankOfRatio (num den : Nat) : Nat :=
  let scaled := num * unitsPerOne
  -- As many low bits as have to go; none of a magnitude below 2 ^ 53 units.
  let shift := (scaled / den).log2 - 52
  shift * twoPow 52 + roundHalfEven scaled (den * twoPow shift)

/-- The double with the given sign whose magnitude is nearest to
    `num / den`; an infinity if the rounded magnitude is not finite. -/
def ofRatio (negative : Bool) (num den : Nat) : Binary64 :=
  if h : rankOfRatio num den < rankCount then .finite negative ⟨_, h⟩
  else .infinite negative

/-! ## Section 3: Integers and constants -/

/-- The double nearest to an integer. -/
def ofInt (n : Int) : Binary64 := ofRatio (n < 0) n.natAbs 1

/-- Zero, with the given sign. -/
def signedZero (negative : Bool) : Binary64 := .finite negative ⟨0, by decide⟩

/-- The number with its sign turned. -/
def negate : Binary64 → Binary64
  | .nan => .nan
  | .infinite negative => .infinite !negative
  | .finite negative rank => .finite (!negative) rank

/-- Neither NaN nor an infinity. -/
def isFinite : Binary64 → Bool
  | .finite _ _ => true
  | _ => false

end Binary64
end CondExpr
