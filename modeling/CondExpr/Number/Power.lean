/-! # Powers

  The powers of two and ten, on which the number formats are built.
-/

namespace CondExpr

/-- Two to the given exponent. -/
abbrev twoPow (exponent : Nat) : Nat := Nat.pow 2 exponent

/-- Ten to the given exponent. -/
abbrev tenPow (exponent : Nat) : Nat := Nat.pow 10 exponent

end CondExpr
