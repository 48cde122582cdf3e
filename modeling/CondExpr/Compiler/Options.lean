import CondExpr.Compiled.Namespace

/-! # Compiler options

  The root tokens of conditions and of filters, and whether every compiled
  expression is checked for coverage. Options are acceptable when no
  placeholder of a condition can be one of a filter in the same request.
-/

namespace CondExpr

/-- Why a root token is refused. -/
inductive RootError where
  /-- Empty, or with a character that is no token character. -/
  | malformed (token : String)
  /-- The placeholders of filters could be those of conditions. -/
  | overlapping (filterToken conditionToken : String)
  deriving DecidableEq, Repr

/-- The wording of a root error. -/
def RootError.message : RootError → String
  | .malformed token =>
    "Invalid placeholder prefix '" ++ token ++
      "': expected a non-empty run of ASCII letters, digits or '_'"
  | .overlapping filterToken conditionToken =>
    "Invalid placeholder prefix '" ++ filterToken ++
      "': filter placeholders would collide with condition prefix '" ++ conditionToken ++ "'"

/-- Accepts a root token. -/
def checkRoot (token : String) : Except RootError Unit :=
  if isRootToken token then .ok () else .error (.malformed token)

/-- The second token is the first one, or begins like a namespace below it. -/
def isBelow (outer inner : String) : Bool :=
  outer = inner || (outer.toList ++ ['_']).isPrefixOf inner.toList

/-- What a compiler is set up with. -/
structure Options where
  /-- The root token of conditions. -/
  conditionRoot : String := "C"
  /-- The root token of filters. -/
  filterRoot : String := "F"
  /-- Check every compiled expression for coverage. -/
  checkCoverage : Bool := false
  deriving DecidableEq, Repr

namespace Options

/-- The options that nothing has been said about. -/
def standard : Options := {}

/-- Accepts options whose tokens are well-formed and cannot collide. -/
def check (o : Options) : Except RootError Unit := do
  checkRoot o.conditionRoot
  checkRoot o.filterRoot
  if isBelow o.conditionRoot o.filterRoot || isBelow o.filterRoot o.conditionRoot then
    .error (.overlapping o.filterRoot o.conditionRoot)

end Options
end CondExpr
