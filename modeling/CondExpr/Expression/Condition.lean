import CondExpr.Expression.Operator
import CondExpr.Value.Scalar

/-! # Conditions

  Predicates on single attributes, and the trees that connectives and
  negations build from them.
-/

namespace CondExpr

/-! ## Section 1: Predicates -/

/-- A test of one attribute. -/
inductive Predicate where
  /-- The attribute compares with a value. -/
  | compare (field : String) (op : Comparator) (value : Scalar)
  /-- The attribute lies between two values, ends included. -/
  | between (field : String) (low high : Scalar)
  /-- The attribute is a text that begins with another. -/
  | beginsWith (field : String) (start : String)
  /-- The attribute contains a value. -/
  | contains (field : String) (value : Scalar)
  /-- The attribute is there. -/
  | present (field : String)
  /-- The attribute is not there. -/
  | absent (field : String)
  /-- The size of the attribute compares with a number. -/
  | size (field : String) (op : Comparator) (bound : Binary64)
  /-- The attribute equals one of some values. -/
  | oneOf (field : String) (values : List Scalar)
  deriving DecidableEq, Repr

namespace Predicate

/-- The attribute that is tested. -/
def field : Predicate → String
  | .compare field _ _ | .between field _ _ | .beginsWith field _ | .contains field _
  | .present field | .absent field | .size field _ _ | .oneOf field _ => field

/-- The token that names the predicate's operator: the comparator itself
    for a comparison. -/
def operatorToken : Predicate → String
  | .compare _ op _ => op.token
  | .between .. => "between"
  | .beginsWith .. => "begins_with"
  | .contains .. => "contains"
  | .present _ => "exists"
  | .absent _ => "not_exists"
  | .size .. => "size"
  | .oneOf .. => "in"

end Predicate

/-! ## Section 2: Trees -/

/-- How many connectives and negations may lie above a node of a document
    that is read or of a tree that is compiled. -/
def nestingLimit : Nat := 128

/-- A tree of connectives and negations over leaves of some type. -/
inductive Expression (Leaf : Type) where
  | leaf (leaf : Leaf)
  | join (left : Expression Leaf) (op : Connective) (right : Expression Leaf)
  | negation (inner : Expression Leaf)
  deriving DecidableEq, Repr

namespace Expression

variable {Leaf Other : Type}

/-- The leaves, from left to right. -/
def leaves : Expression Leaf → List Leaf
  | .leaf p => [p]
  | .join left _ right => left.leaves ++ right.leaves
  | .negation inner => inner.leaves

/-- The height of the tree; a leaf has height one. -/
def depth : Expression Leaf → Nat
  | .leaf _ => 1
  | .join left _ right => 1 + max left.depth right.depth
  | .negation inner => 1 + inner.depth

/-- The tree with every leaf replaced. -/
def map (f : Leaf → Other) : Expression Leaf → Expression Other
  | .leaf p => .leaf (f p)
  | .join left op right => .join (left.map f) op (right.map f)
  | .negation inner => .negation (inner.map f)

/-- The tree with every leaf replaced, unless a replacement fails; then the
    fault of the first such leaf. -/
def mapM {Fault : Type} (f : Leaf → Except Fault Other) :
    Expression Leaf → Except Fault (Expression Other)
  | .leaf p => do return .leaf (← f p)
  | .join left op right => do
    let left ← left.mapM f
    let right ← right.mapM f
    return .join left op right
  | .negation inner => do return .negation (← inner.mapM f)

end Expression

/-- A condition. -/
abbrev Condition := Expression Predicate

end CondExpr
