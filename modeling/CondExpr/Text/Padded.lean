/-! # Zero-padded numbers

  Decimal numbers brought to a least width with zeros on the left.
-/

namespace CondExpr

/-- The decimal digits of `n`, with zeros in front up to `width` digits. -/
def padded (width n : Nat) : List Char :=
  let digits := Nat.toDigits 10 n
  List.replicate (width - digits.length) '0' ++ digits

end CondExpr
