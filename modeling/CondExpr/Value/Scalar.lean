import CondExpr.Number.Binary64
import CondExpr.Instant.Basic

/-! # Operands

  The operands of a predicate. Dates are kept as instants until they are
  encoded.
-/

namespace CondExpr

/-- An operand. -/
inductive Scalar where
  | text (value : String)
  | number (value : Binary64)
  | boolean (value : Bool)
  | date (value : Instant)
  deriving DecidableEq, Repr

namespace Scalar

/-- What sort of operand it is, in words. -/
def kind : Scalar → String
  | .text _ => "string"
  | .number _ => "number"
  | .boolean _ => "boolean"
  | .date _ => "date"

/-- An integer operand: the double nearest to it. -/
def ofInt (n : Int) : Scalar := .number (.ofInt n)

end Scalar
end CondExpr
