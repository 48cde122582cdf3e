import CondExpr.Table
import CondExpr.Value.Attribute

/-! # Compiled expressions

  What a condition compiles to: a text with placeholders, and what the
  placeholders stand for.
-/

namespace CondExpr

/-- An expression text with its placeholders. -/
structure CompiledExpression where
  /-- The text, such as `#C_0 >= :C_0`. -/
  expression : String
  /-- Name placeholders and the attributes they name. -/
  names : Table String
  /-- Value placeholders and the operands they carry. -/
  values : Table AttributeValue
  deriving DecidableEq, Repr

namespace CompiledExpression

/-- The attribute behind a name placeholder. -/
def name? (c : CompiledExpression) (placeholder : String) : Option String :=
  c.names.find? placeholder

/-- The operand behind a value placeholder. -/
def value? (c : CompiledExpression) (placeholder : String) : Option AttributeValue :=
  c.values.find? placeholder

end CompiledExpression
end CondExpr
