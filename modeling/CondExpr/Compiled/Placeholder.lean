import CondExpr.Compiled.Namespace
import CondExpr.Table

/-! # Placeholders in a text

  A placeholder is a `#` or `:` with the longest run of token characters
  after it; the run must not be empty. `#` marks names, `:` values.
-/

namespace CondExpr

/-- Begins a placeholder. -/
def isSigil (c : Char) : Bool := c = '#' || c = ':'

/-- All placeholders of a text, from left to right. No sigil is a token
    character, so what follows a sigil can be searched from its first
    character on. -/
def placeholdersIn : List Char → List (List Char)
  | [] => []
  | c :: rest =>
    let run := rest.takeWhile isTokenChar
    if isSigil c && !run.isEmpty then (c :: run) :: placeholdersIn rest
    else placeholdersIn rest

/-- The placeholders of a text, as two sets. -/
structure Placeholders where
  names : Table Unit
  values : Table Unit
  deriving DecidableEq, Repr

namespace Placeholders

/-- The placeholders that begin with the given sigil. -/
def marked (sigil : Char) (found : List (List Char)) : Table Unit :=
  .ofList ((found.filter fun p => p.head? = some sigil).map fun p => (String.ofList p, ()))

/-- Collects the placeholders of a text. -/
def scan (expression : String) : Placeholders :=
  let found := placeholdersIn expression.toList
  ⟨marked '#' found, marked ':' found⟩

end Placeholders
end CondExpr
