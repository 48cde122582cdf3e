/-! # Attribute values

  The tagged form in which operands are sent: text under `S`, a numeral
  under `N`, a truth value under `BOOL`.
-/

namespace CondExpr

/-- An encoded operand. -/
inductive AttributeValue where
  | text (value : String)
  | numeral (digits : String)
  | boolean (value : Bool)
  deriving DecidableEq, Repr

namespace AttributeValue

/-- The tag an attribute value is sent under. -/
def tag : AttributeValue → String
  | .text _ => "S"
  | .numeral _ => "N"
  | .boolean _ => "BOOL"

end AttributeValue
end CondExpr
