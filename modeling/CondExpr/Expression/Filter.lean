import CondExpr.Expression.Condition

/-! # Filters

  The conditions that a query filter may use: those whose predicates are
  all comparisons, ranges and text beginnings. Every filter *widens* to a
  condition; a condition *narrows* to a filter or is refused because of its
  first predicate that no filter can hold.
-/

namespace CondExpr

/-- A predicate that filters can hold. -/
inductive FilterPredicate where
  | compare (field : String) (op : Comparator) (value : Scalar)
  | between (field : String) (low high : Scalar)
  | beginsWith (field : String) (start : String)
  deriving DecidableEq, Repr

/-- A filter. -/
abbrev Filter := Expression FilterPredicate

/-- Why a condition is no filter: the operator of a predicate that filters
    cannot hold. -/
structure NotFilterable where
  operator : String
  deriving DecidableEq, Repr

/-- The wording of the refusal. -/
def NotFilterable.message (e : NotFilterable) : String :=
  "Operator " ++ e.operator ++ " is not allowed in a filter expression"

/-! ## Section 1: Widening -/

/-- The predicate as part of a condition. -/
def FilterPredicate.widen : FilterPredicate → Predicate
  | .compare field op value => .compare field op value
  | .between field low high => .between field low high
  | .beginsWith field start => .beginsWith field start

/-- The filter as a condition. -/
def Filter.widen (f : Filter) : Condition := f.map FilterPredicate.widen

/-! ## Section 2: Narrowing -/

/-- The predicate as part of a filter. -/
def Predicate.narrow : Predicate → Except NotFilterable FilterPredicate
  | .compare field op value => .ok (.compare field op value)
  | .between field low high => .ok (.between field low high)
  | .beginsWith field start => .ok (.beginsWith field start)
  | p => .error ⟨p.operatorToken⟩

/-- The condition as a filter. -/
def Condition.narrow (c : Condition) : Except NotFilterable Filter := c.mapM Predicate.narrow

end CondExpr
