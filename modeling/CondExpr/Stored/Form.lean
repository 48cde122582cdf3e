import CondExpr.Compiled.Expression
import CondExpr.Compiler.Options
import CondExpr.Expression.Filter
import CondExpr.Instant.Text
import CondExpr.Json.Basic

/-! # Stored forms

  The JSON values that the library's values are stored as.

  - A variant with a value is an object with one member, named after the
    variant; a variant without one is its name.
  - A predicate is an object that carries its operator as a member.
  - A record is an object with its fields in order.
-/

namespace CondExpr

/-- A variant with its value. -/
def variant (name : String) (value : Json) : Json := .object [(name, value)]

/-- The stored form of a comparator: its token. -/
def Comparator.toJson (op : Comparator) : Json := .text op.token

/-- The stored form of a connective: its token. -/
def Connective.toJson (op : Connective) : Json := .text op.token

/-- The stored form of an operand. -/
def Scalar.toJson : Scalar → Json
  | .text s => variant "String" (.text s)
  | .number x => variant "Number" (.real x)
  | .boolean b => variant "Bool" (.boolean b)
  | .date t => variant "Date" (.text t.stored)

/-- The stored form of an attribute value. -/
def AttributeValue.toJson : AttributeValue → Json
  | .text s => variant "S" (.text s)
  | .numeral digits => variant "N" (.text digits)
  | .boolean b => variant "BOOL" (.boolean b)

/-- The member that names a predicate's operator. -/
abbrev operatorKey : String := "operator"

/-- A predicate with the name of its operator and its fields. -/
def tagged (operator : String) (fields : List (String × Json)) : Json :=
  .object ((operatorKey, .text operator) :: fields)

/-- The stored form of a predicate. -/
def Predicate.toJson : Predicate → Json
  | .compare field op value =>
    tagged "compare" [("field", .text field), ("op", op.toJson), ("value", value.toJson)]
  | .between field low high =>
    tagged "between" [("field", .text field), ("low", low.toJson), ("high", high.toJson)]
  | .beginsWith field start =>
    tagged "begins_with" [("field", .text field), ("prefix", .text start)]
  | .contains field value => tagged "contains" [("field", .text field), ("value", value.toJson)]
  | .present field => tagged "exists" [("field", .text field)]
  | .absent field => tagged "not_exists" [("field", .text field)]
  | .size field op bound =>
    tagged "size" [("field", .text field), ("op", op.toJson), ("value", .real bound)]
  | .oneOf field values =>
    tagged "in" [("field", .text field), ("values", .array (values.map Scalar.toJson))]

/-- The stored form of a predicate of a filter. -/
def FilterPredicate.toJson : FilterPredicate → Json
  | .compare field op value =>
    tagged "compare" [("field", .text field), ("op", op.toJson), ("value", value.toJson)]
  | .between field low high =>
    tagged "between" [("field", .text field), ("low", low.toJson), ("high", high.toJson)]
  | .beginsWith field start =>
    tagged "begins_with" [("field", .text field), ("prefix", .text start)]

/-- The stored form of a tree, from that of its leaves. -/
def Expression.toJson {Leaf : Type} (leafToJson : Leaf → Json) : Expression Leaf → Json
  | .leaf p => variant "Condition" (leafToJson p)
  | .join left op right =>
    variant "Logic" (.object [("left", left.toJson leafToJson), ("op", op.toJson),
      ("right", right.toJson leafToJson)])
  | .negation inner => variant "Not" (inner.toJson leafToJson)

/-- The stored form of a condition. -/
def Condition.toJson (c : Condition) : Json := Expression.toJson Predicate.toJson c

/-- The stored form of a filter. -/
def Filter.toJson (f : Filter) : Json := Expression.toJson FilterPredicate.toJson f

/-- The stored form of a table: an object with its entries in order. -/
def Table.toJson {α : Type} (valueToJson : α → Json) (t : Table α) : Json :=
  .object (t.entries.map fun entry => (entry.1, valueToJson entry.2))

/-- The stored form of a compiled expression. -/
def CompiledExpression.toJson (c : CompiledExpression) : Json :=
  .object [("expression", .text c.expression), ("names", c.names.toJson .text),
    ("values", c.values.toJson AttributeValue.toJson)]

/-- The stored form of options. -/
def Options.toJson (o : Options) : Json :=
  .object [("condition_prefix", .text o.conditionRoot), ("filter_prefix", .text o.filterRoot),
    ("validate_output", .boolean o.checkCoverage)]

end CondExpr
