/-! # Namespaces

  Every node of a condition has a namespace of its own, from which its
  placeholders are named. The namespace of a child is that of its parent,
  an underscore, and the child's index in lowercase hexadecimal; so no two
  nodes share one, and siblings need no common counter.
-/

namespace CondExpr

/-- The characters that placeholders are made of: ASCII letters and digits
    and the underscore. -/
def isTokenChar (c : Char) : Bool := c.isAlphanum || c = '_'

/-- The namespace of a node. -/
structure Namespace where
  token : String
  deriving DecidableEq, Repr

namespace Namespace

/-- The namespace of the root node; the text is taken as it is. -/
def root (token : String) : Namespace := ⟨token⟩

/-- The namespace of a child. -/
def child (ns : Namespace) (index : Nat) : Namespace :=
  ⟨ns.token ++ "_" ++ .ofList (Nat.toDigits 16 index)⟩

/-- The placeholder of the attribute's name. -/
def name (ns : Namespace) : String := "#" ++ ns.token

/-- The placeholder of an operand, when there is one. -/
def value (ns : Namespace) : String := ":" ++ ns.token

/-- The placeholder of an operand, when there are several. -/
def suffixedValue (ns : Namespace) (suffix : String) : String := ":" ++ ns.token ++ suffix

end Namespace

/-- A text that can be the token of a root: its placeholders then hold
    nothing but token characters. -/
def isRootToken (token : String) : Bool :=
  token ≠ "" && token.toList.all isTokenChar

end CondExpr
