import CondExpr.Json.Basic

/-! # Numbers in JSON text

  How the digits of a JSON number become a value. An integer that fits 64
  bits is exact. Every other number goes through a significand of at most
  64 bits, which is converted to a double and then scaled by a power of
  ten; so it is rounded up to twice, and need not be the double nearest to
  what is written.
-/

namespace CondExpr.Json

/-- Digits are taken into the significand as long as it stays below this. -/
abbrev significandLimit : Nat := twoPow 64

/-- The greatest written exponent that is still evaluated. -/
abbrev exponentLimit : Nat := twoPow 31

/-- The greatest power of ten that is applied in one step. -/
abbrev greatestPower : Nat := 308

/-- The rank of the double nearest to `10 ^ power`. -/
def powerRank (power : Nat) : Nat := Binary64.rankOfRatio (tenPow power) 1

/-- The rank of a product of two magnitudes. -/
def timesRank (a b : Nat) : Nat :=
  Binary64.rankOfRatio (Binary64.units a * Binary64.units b)
    (Binary64.unitsPerOne * Binary64.unitsPerOne)

/-- The rank of a quotient of two magnitudes. -/
def overRank (a b : Nat) : Nat :=
  Binary64.rankOfRatio (Binary64.units a) (Binary64.units b)

/-- Divides a magnitude by `10 ^ power`, at most 308 powers at a time. -/
def scaleDown (rank power : Nat) : Nat :=
  if power ≤ greatestPower then overRank rank (powerRank power)
  else if rank = 0 then 0
  else scaleDown (overRank rank (powerRank greatestPower)) (power - greatestPower)
termination_by power
decreasing_by
  have : 308 < power := Nat.lt_of_not_le ‹_›
  exact Nat.sub_lt (Nat.lt_trans (by decide) this) (by decide)

/-- The double of a significand and an exponent; `none` if it is not finite. -/
def ofParts? (negative : Bool) (significand : Nat) (exponent : Int) : Option Binary64 :=
  let start := Binary64.rankOfRatio significand 1
  let rank :=
    if exponent < 0 then scaleDown start exponent.natAbs
    else if exponent ≤ greatestPower then timesRank start (powerRank exponent.toNat)
    else if significand = 0 then 0
    else Binary64.rankCount
  if h : rank < Binary64.rankCount then some (.finite negative ⟨rank, h⟩) else none

/-- The value of an integer without point or exponent that fits the
    significand. Negative zero, and what is below the 64-bit integers, is a
    double. -/
def ofInteger (negative : Bool) (significand : Nat) : Json :=
  if negative then
    if significand = 0 ∨ twoPow 63 < significand then .real (Binary64.ofInt significand).negate
    else .integer (-significand)
  else .integer significand

end CondExpr.Json
