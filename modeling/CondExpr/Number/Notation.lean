import CondExpr.Number.Decimal

/-! # Number notations

  The two ways in which doubles are written, and the one in which numbers
  typed by people are read.

  - *Plain*: the shortest digits, positional, without exponent. Used in
    encoded attribute values and in messages.
  - *Data*: the shortest digits, always with a point or an exponent. Used
    in stored JSON.
-/

namespace CondExpr

/-! ## Section 1: Writing -/

/-- The sign of a written number. -/
def signText (negative : Bool) : String := if negative then "-" else ""

namespace Decimal

/-- The digits of the coefficient. -/
def digits (d : Decimal) : List Char := Nat.toDigits 10 d.coefficient

/-- Positional notation: zeros fill the gap between the digits and the
    point, and there is no point without a digit after it. -/
def positional (d : Decimal) : List Char :=
  let places := (-d.exponent).toNat
  let size := d.digits.length
  if places = 0 then d.digits ++ List.replicate d.exponent.toNat '0'
  else if places < size then
    d.digits.take (size - places) ++ '.' :: d.digits.drop (size - places)
  else '0' :: '.' :: List.replicate (places - size) '0' ++ d.digits

/-- Scientific notation: one digit before the point, and a signed exponent
    that the caller has worked out. -/
def scientific (d : Decimal) (order : Int) : List Char :=
  let significand := match d.digits with
    | [] => []
    | [only] => [only]
    | first :: rest => first :: '.' :: rest
  significand ++ 'e' :: (if order < 0 then '-' else '+') :: Nat.toDigits 10 order.natAbs

end Decimal

namespace Binary64

/-- Plain notation: `21`, `-0`, `0.000001`, `NaN`, `inf`, `-inf`. Of two
    equally near shortest numerals it is the larger in magnitude. -/
def plain : Binary64 → String
  | .nan => "NaN"
  | .infinite negative => signText negative ++ "inf"
  | .finite negative rank =>
    let body := if rank.val = 0 then ['0'] else (Decimal.shortest .away rank).positional
    signText negative ++ String.ofList body

/-- Data notation of a finite magnitude: `1.0`, `0.5`, `1e+16`, `1.25e-10`.
    Positional from `10 ^ -5` up to below `10 ^ 16`, scientific elsewhere; of
    two equally near shortest numerals it is the even one. -/
def dataDigits (rank : Nat) : List Char :=
  if rank = 0 then ['0', '.', '0']
  else
    let d := Decimal.shortest .even rank
    let order := (d.digits.length : Int) + d.exponent - 1
    if order < -5 ∨ 16 ≤ order then d.scientific order
    else if 0 ≤ d.exponent then d.positional ++ ['.', '0']
    else d.positional

/-- Data notation; JSON has no numeral for NaN and the infinities, so these
    are written as `null`. -/
def dataText : Binary64 → String
  | .finite negative rank => signText negative ++ String.ofList (dataDigits rank)
  | _ => "null"

end Binary64

/-! ## Section 2: Reading -/

/-- Splits off the leading decimal digits. -/
def spanDigits (cs : List Char) : List Char × List Char :=
  cs.span Char.isDigit

/-- The value of a run of decimal digits. -/
def digitsValue (cs : List Char) : Nat := Nat.ofDigitChars 10 cs 0

/-- Splits off a leading sign: whether there is a minus, and what follows. -/
def splitSign : List Char → Bool × List Char
  | '-' :: rest => (true, rest)
  | '+' :: rest => (false, rest)
  | cs => (false, cs)

/-- A written exponent, after its `e`: an optional sign and digits up to
    the end of the text. -/
def readExponent? (cs : List Char) : Option Int :=
  let (negative, body) := splitSign cs
  let (digits, rest) := spanDigits body
  if digits.isEmpty ∨ ¬ rest.isEmpty then none
  else some (if negative then -digitsValue digits else digitsValue digits)

/-- An unsigned numeral: digits, a point and digits, with digits on at
    least one side of the point, then perhaps an exponent. -/
def Decimal.read? (cs : List Char) : Option Decimal :=
  let (whole, rest) := spanDigits cs
  let (fraction, rest) := match rest with
    | '.' :: rest => spanDigits rest
    | _ => ([], rest)
  if whole.isEmpty ∧ fraction.isEmpty then none
  else
    let exponent? := match rest with
      | [] => some 0
      | 'e' :: rest => readExponent? rest
      | 'E' :: rest => readExponent? rest
      | _ => none
    exponent?.map fun exponent =>
      ⟨digitsValue (whole ++ fraction), exponent - (fraction.length : Int)⟩

/-- Number text: a signed numeral, read as the nearest double, or one of
    the words `inf`, `infinity` and `nan` in any case. -/
def Binary64.read? (text : String) : Option Binary64 :=
  let (negative, body) := splitSign text.toList
  match String.ofList (body.map Char.toLower) with
  | "nan" => some .nan
  | "inf" => some (.infinite negative)
  | "infinity" => some (.infinite negative)
  | _ => (Decimal.read? body).map (Decimal.toBinary64 negative)

end CondExpr
