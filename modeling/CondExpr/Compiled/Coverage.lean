import CondExpr.Compiled.Expression
import CondExpr.Compiled.Placeholder

/-! # Coverage

  A compiled expression is covered when its text and its tables agree:
  every placeholder of the text has an entry, and every entry is used. Of
  several defects the check reports unresolved names first, then unresolved
  values, unused names and unused values, and of each kind the smallest.
-/

namespace CondExpr

/-- How text and tables disagree. -/
inductive CoverageError where
  | unresolvedName (placeholder : String)
  | unresolvedValue (placeholder : String)
  | unusedName (placeholder : String)
  | unusedValue (placeholder : String)
  deriving DecidableEq, Repr

/-- The wording of a coverage error. -/
def CoverageError.message : CoverageError → String
  | .unresolvedName p => "Name placeholder " ++ p ++ " is used but not defined"
  | .unresolvedValue p => "Value placeholder " ++ p ++ " is used but not defined"
  | .unusedName p => "Name placeholder " ++ p ++ " is defined but never used"
  | .unusedValue p => "Value placeholder " ++ p ++ " is defined but never used"

/-- The smallest key of one table that the other lacks. -/
def Table.firstMissing {α β : Type} (t : Table α) (u : Table β) : Option String :=
  t.keys.find? fun key => !u.contains key

/-- Checks that text and tables agree. -/
def CompiledExpression.checkCoverage (c : CompiledExpression) : Except CoverageError Unit :=
  let used := Placeholders.scan c.expression
  match used.names.firstMissing c.names, used.values.firstMissing c.values,
      c.names.firstMissing used.names, c.values.firstMissing used.values with
  | some p, _, _, _ => .error (.unresolvedName p)
  | none, some p, _, _ => .error (.unresolvedValue p)
  | none, none, some p, _ => .error (.unusedName p)
  | none, none, none, some p => .error (.unusedValue p)
  | none, none, none, none => .ok ()

end CondExpr
