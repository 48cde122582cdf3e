import CondExpr.Document.Reader

/-! # The documents of conditions

  Writes a condition down as a document, all its numbers as doubles. Dates
  have no written form in documents. In the place of a date stands null,
  which no operator takes; so what is written for a condition with a date is
  no document.
-/

namespace CondExpr

/-- An operand, written down. -/
def Scalar.document : Scalar → Json
  | .text s => .text s
  | .number x => .real x
  | .boolean b => .boolean b
  | .date _ => .null

namespace Predicate

/-- What is written after the operator. -/
def operandDocuments : Predicate → List Json
  | .compare _ _ value | .contains _ value => [value.document]
  | .between _ low high => [low.document, high.document]
  | .beginsWith _ start => [.text start]
  | .present _ | .absent _ => []
  | .size _ op bound => [.text op.token, .real bound]
  | .oneOf _ values => [.array (values.map Scalar.document)]

/-- A predicate, written down. -/
def document (p : Predicate) : Json :=
  .array (.text p.field :: .text p.operatorToken :: p.operandDocuments)

end Predicate

/-- A condition, written down. -/
def Condition.document : Condition → Json
  | .leaf p => p.document
  | .join left op right => .array [document left, .text op.token, document right]
  | .negation inner => .object [("NOT", document inner)]

end CondExpr
