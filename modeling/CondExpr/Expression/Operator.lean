/-! # Operators

  The six comparators and the two connectives, with the tokens that stand
  for them in documents and in compiled expressions.
-/

namespace CondExpr

/-- Compares an attribute with an operand. -/
inductive Comparator where
  | eq | ne | lt | le | gt | ge
  deriving DecidableEq, Repr

namespace Comparator

/-- All comparators. -/
def all : List Comparator := [.eq, .ne, .lt, .le, .gt, .ge]

/-- The token of a comparator. -/
def token : Comparator → String
  | .eq => "="
  | .ne => "<>"
  | .lt => "<"
  | .le => "<="
  | .gt => ">"
  | .ge => ">="

/-- The comparator of a token. -/
def ofToken? (token : String) : Option Comparator :=
  all.find? fun op => op.token = token

@[simp] theorem ofToken?_token (op : Comparator) : ofToken? op.token = some op := by
  cases op <;> decide

end Comparator

/-- Joins two expressions. -/
inductive Connective where
  | and | or
  deriving DecidableEq, Repr

namespace Connective

/-- All connectives. -/
def all : List Connective := [.and, .or]

/-- The token of a connective. -/
def token : Connective → String
  | .and => "AND"
  | .or => "OR"

/-- The connective of a token. -/
def ofToken? (token : String) : Option Connective :=
  all.find? fun op => op.token = token

@[simp] theorem ofToken?_token (op : Connective) : ofToken? op.token = some op := by
  cases op <;> decide

end Connective
end CondExpr
