/-! # Hexadecimal digits

  The digits of escapes, in either case.
-/

namespace CondExpr

/-- The value of a hexadecimal digit. -/
def hexValue? (c : Char) : Option Nat :=
  if '0' ≤ c ∧ c ≤ '9' then some (c.toNat - 48)
  else if 'a' ≤ c ∧ c ≤ 'f' then some (c.toNat - 87)
  else if 'A' ≤ c ∧ c ≤ 'F' then some (c.toNat - 55)
  else none

/-- The value of a run of hexadecimal digits. -/
def hexNumber? (cs : List Char) : Option Nat := do
  let values ← cs.mapM hexValue?
  return values.foldl (fun n value => n * 16 + value) 0

end CondExpr
