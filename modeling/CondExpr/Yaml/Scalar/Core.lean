import CondExpr.Json.Basic
import CondExpr.Number.Notation
import CondExpr.Yaml.Tag.Basic

/-! # Core values

  The values that plain scalars and those with core tags stand for: null,
  truth values, integers and floating point numbers.
-/

namespace CondExpr.Yaml

/-! ## Section 1: Null and truth values -/

/-- The spellings of null. -/
def isNullText (s : String) : Bool := ["null", "Null", "NULL", "~"].contains s

/-- The truth value of a spelling. -/
def readBoolean? (s : String) : Option Bool :=
  if ["true", "True", "TRUE"].contains s then some true
  else if ["false", "False", "FALSE"].contains s then some false
  else none

/-! ## Section 2: Integers -/

/-- The value of a digit, the letters being the digits after nine. -/
def digitValue (c : Char) : Nat :=
  if c.isDigit then c.toNat - 48 else c.toLower.toNat - 87

/-- The value of digits to a base; there must be a digit. -/
def readNatural? (base : Nat) (cs : List Char) : Option Nat :=
  if cs.isEmpty || !cs.all (fun c => c.isAlphanum && digitValue c < base) then none
  else some (cs.foldl (fun n c => n * base + digitValue c) 0)

/-- The value of digits that may have the mark of their base in front. -/
def readBased? : List Char → Option Nat
  | '0' :: 'x' :: rest => readNatural? 16 rest
  | '0' :: 'o' :: rest => readNatural? 8 rest
  | '0' :: 'b' :: rest => readNatural? 2 rest
  | cs => readNatural? 10 cs

/-- Digits with a zero in front are no number. -/
def hasLeadingZero : List Char → Bool
  | '0' :: rest => !rest.isEmpty && rest.all Char.isDigit
  | _ => false

/-- The integer of a text, if it is not larger than 128 bits. Integers of
    more bits are read as floating point numbers, if they are decimal. -/
def readInteger? (s : String) : Option Int := do
  let (negative, body) := splitSign s.toList
  if hasLeadingZero body then none
  else
    let n ← readBased? body
    if negative then if n ≤ twoPow 127 then some (-n) else none
    else if n < twoPow 128 then some n
    else none

/-- The integer can be a value: it fits 64 bits, with or without a sign. -/
def fitsValue (n : Int) : Bool := -(twoPow 63 : Int) ≤ n && n < (twoPow 64 : Int)

/-! ## Section 3: Floating point numbers -/

/-- The floating point number of a text. A finite number is never written so
    large that it would be rounded to infinity. -/
def readFloat? (s : String) : Option Binary64 :=
  if [".inf", ".Inf", ".INF", "+.inf", "+.Inf", "+.INF"].contains s then some (.infinite false)
  else if ["-.inf", "-.Inf", "-.INF"].contains s then some (.infinite true)
  else if [".nan", ".NaN", ".NAN"].contains s then some .nan
  else (Binary64.read? s).filter Binary64.isFinite

/-- The value of a floating point number. There is none but null for those
    that are not finite. -/
def floatValue (x : Binary64) : Json := if x.isFinite then .real x else .null

/-! ## Section 4: Scalars -/

/-- The value of an integer, if there is one. -/
def integerValue? (n : Int) : Option Json := if fitsValue n then some (.integer n) else none

/-- The value of a plain scalar without a tag. Only an integer may have none:
    one that does not fit. -/
def plainValue? (s : String) : Option Json :=
  if s.isEmpty || isNullText s then some .null
  else
    match readBoolean? s, readInteger? s with
    | some b, _ => some (.boolean b)
    | none, some n => integerValue? n
    | none, none =>
      -- Digits like 007 would be a floating point number otherwise.
      if hasLeadingZero (splitSign s.toList).2 then some (.text s)
      else some ((readFloat? s).elim (.text s) floatValue)

/-- The value of a scalar with a tag that is not local. Those that are not
    core tags make texts. -/
def taggedValue? (tag : Tag) (s : String) : Option Json :=
  if tag = .null then if isNullText s then some .null else none
  else if tag = .boolean then (readBoolean? s).map .boolean
  else if tag = .integer then (readInteger? s).bind integerValue?
  else if tag = .float then (readFloat? s).map floatValue
  else some (.text s)

end CondExpr.Yaml
