import CondExpr.Compiled.Expression
import CondExpr.Compiled.Namespace
import CondExpr.Expression.Filter
import CondExpr.Value.Encoding

/-! # Rendering

  Turns predicates, conditions and filters into compiled expressions. The
  text depends on the shape of the tree alone: attribute names and operands
  go into the tables, under placeholders named after the node's place in
  the tree.

  A node passes the namespace of child 0 to its left or only operand and
  that of child 1 to its right one; a predicate is rendered under child 0
  of its own namespace. Faults are found in the order of the walk: a node
  before what is below it, and left before right.
-/

namespace CondExpr

/-- Why a condition cannot be rendered. -/
inductive RenderError where
  /-- The encoder refuses an operand. -/
  | encoding (cause : EncodeError)
  /-- A node lies deeper than the nesting limit. -/
  | tooDeep
  /-- An attribute is tested against an empty list of values. -/
  | noValues (field : String)
  deriving DecidableEq, Repr

/-- The wording of a rendering error. -/
def RenderError.message : RenderError → String
  | .encoding cause =>
    "Unable to convert the value for the specified condition: " ++ cause.message
  | .tooDeep =>
    "Invalid condition: expression nests deeper than " ++ toString nestingLimit ++ " levels"
  | .noValues field =>
    "Invalid condition: in on field '" ++ field ++ "' requires at least one value"

/-! ## Section 1: Predicates -/

/-- Encodes an operand. -/
def encodeOperand (encode : Encoder) (value : Scalar) : Except RenderError AttributeValue :=
  (encode value).mapError .encoding

/-- The placeholders of the values in a list of the given length. -/
def listPlaceholders (ns : Namespace) (length : Nat) : List String :=
  (List.range length).map fun index => ns.suffixedValue ("I" ++ toString index)

/-- Renders a predicate under a namespace. The closing parenthesis after a
    size test has no opening one, so there parentheses do not balance. -/
def Predicate.render (encode : Encoder) (ns : Namespace) (p : Predicate) :
    Except RenderError CompiledExpression := do
  let names := Table.single ns.name p.field
  match p with
  | .compare _ op value => do
    let value ← encodeOperand encode value
    return ⟨ns.name ++ " " ++ op.token ++ " " ++ ns.value, names, .single ns.value value⟩
  | .between _ low high => do
    let low ← encodeOperand encode low
    let high ← encodeOperand encode high
    let lowKey := ns.suffixedValue "_L"
    let highKey := ns.suffixedValue "_R"
    return ⟨ns.name ++ " BETWEEN " ++ lowKey ++ " AND " ++ highKey, names,
      (Table.single lowKey low).insert highKey high⟩
  | .beginsWith _ start => do
    let value ← encodeOperand encode (.text start)
    return ⟨"begins_with (" ++ ns.name ++ ", " ++ ns.value ++ ")", names, .single ns.value value⟩
  | .contains _ value => do
    let value ← encodeOperand encode value
    return ⟨"contains (" ++ ns.name ++ ", " ++ ns.value ++ ")", names, .single ns.value value⟩
  | .present _ => return ⟨"attribute_exists (" ++ ns.name ++ ")", names, .empty⟩
  | .absent _ => return ⟨"attribute_not_exists (" ++ ns.name ++ ")", names, .empty⟩
  | .size _ op bound => do
    let value ← encodeOperand encode (.number bound)
    return ⟨"size(" ++ ns.name ++ ") " ++ op.token ++ " " ++ ns.value ++ ")", names,
      .single ns.value value⟩
  | .oneOf field values => do
    if values.isEmpty then .error (.noValues field)
    else
      let encoded ← values.mapM (encodeOperand encode)
      let keys := listPlaceholders ns values.length
      return ⟨ns.name ++ " IN (" ++ ", ".intercalate keys ++ ")", names,
        .ofList (keys.zip encoded)⟩

/-! ## Section 2: Conditions and filters -/

namespace CompiledExpression

/-- Two compiled expressions joined by a connective. -/
def join (left : CompiledExpression) (op : Connective) (right : CompiledExpression) :
    CompiledExpression :=
  ⟨"(" ++ left.expression ++ ") " ++ op.token ++ " (" ++ right.expression ++ ")",
    left.names.union right.names, left.values.union right.values⟩

/-- The negation of a compiled expression. -/
def negation (inner : CompiledExpression) : CompiledExpression :=
  { inner with expression := "NOT (" ++ inner.expression ++ ")" }

end CompiledExpression

/-- Renders a condition that has `above` connectives and negations above it. -/
def Condition.renderBelow (encode : Encoder) (above : Nat) (ns : Namespace) (c : Condition) :
    Except RenderError CompiledExpression :=
  if nestingLimit < above then .error .tooDeep
  else
    match c with
    | .leaf p => p.render encode (ns.child 0)
    | .join left op right => do
      let left ← renderBelow encode (above + 1) (ns.child 0) left
      let right ← renderBelow encode (above + 1) (ns.child 1) right
      return .join left op right
    | .negation inner => do
      let inner ← renderBelow encode (above + 1) (ns.child 0) inner
      return .negation inner

/-- Renders a condition as if it stood at a namespace. -/
def Condition.render (encode : Encoder) (ns : Namespace) (c : Condition) :
    Except RenderError CompiledExpression :=
  renderBelow encode 0 ns c

/-- Renders a filter under a root token: as the condition it widens to. -/
def Filter.render (encode : Encoder) (token : String) (f : Filter) :
    Except RenderError CompiledExpression :=
  f.widen.render encode (.root token)

end CondExpr
