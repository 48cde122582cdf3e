import CondExpr.Value.Scalar
import CondExpr.Value.Attribute
import CondExpr.Number.Notation
import CondExpr.Instant.Text

/-! # Encoding operands

  An encoder turns operands into attribute values, or refuses. The standard
  encoder writes numbers in plain notation and dates in the fixed form. It
  refuses what the receiving side could not hold:

  - numbers that are not finite;
  - numbers whose magnitude is at least `10 ^ 126`, or below `10 ^ -130`
    without being zero;
  - dates outside the years 0 to 9999.
-/

namespace CondExpr

/-- Why an operand is refused. -/
inductive EncodeError where
  | notFinite (value : Binary64)
  | numberOutOfRange (value : Binary64)
  | dateOutOfRange (value : Instant)
  deriving DecidableEq, Repr

/-- The wording of an encoding error. -/
def EncodeError.message : EncodeError → String
  | .notFinite x => "Number " ++ x.plain ++ " is not finite"
  | .numberOutOfRange x => "Number " ++ x.plain ++ " is outside the representable range"
  | .dateOutOfRange t => "Date " ++ t.shown ++ " has a year outside 0000-9999"

/-- A way of encoding operands. -/
abbrev Encoder := Scalar → Except EncodeError AttributeValue

namespace Encoder

/-- The least magnitude that is too large, as a rank. -/
def greatestRank : Nat := Binary64.rankOfRatio (tenPow 126) 1

/-- The least magnitude above zero that is not too small, as a rank. -/
def leastRank : Nat := Binary64.rankOfRatio 1 (tenPow 130)

/-- Encodes a number. Negative zero is written as zero. -/
def encodeNumber (x : Binary64) : Except EncodeError AttributeValue :=
  match x with
  | .finite _ rank =>
    if rank.val = 0 then .ok (.numeral "0")
    else if greatestRank ≤ rank.val ∨ rank.val < leastRank then .error (.numberOutOfRange x)
    else .ok (.numeral x.plain)
  | _ => .error (.notFinite x)

/-- Encodes a date. -/
def encodeDate (t : Instant) : Except EncodeError AttributeValue :=
  if 0 ≤ t.date.year ∧ t.date.year ≤ 9999 then .ok (.text t.fixed)
  else .error (.dateOutOfRange t)

/-- The standard encoder. -/
def standard : Encoder
  | .text s => .ok (.text s)
  | .number x => encodeNumber x
  | .boolean b => .ok (.boolean b)
  | .date t => encodeDate t

end Encoder
end CondExpr
