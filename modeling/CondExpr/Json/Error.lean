/-! # Faults in JSON text

  What can be wrong with a JSON text, and where. A place is given as a line
  and a column in bytes, both found from the number of bytes up to it.
-/

namespace CondExpr

/-- What is wrong with a JSON text. -/
inductive JsonFault where
  | endInValue
  | endInList
  | endInObject
  | endInString
  | expectedValue
  | expectedWord
  | expectedColon
  | expectedListEnd
  | expectedObjectEnd
  | keyNotString
  | trailingComma
  | trailingCharacters
  | controlCharacter
  | invalidEscape
  | endOfEscape
  | loneSurrogate
  | invalidNumber
  | numberOutOfRange
  | nestingTooDeep
  deriving DecidableEq, Repr

/-- The wording of a fault. -/
def JsonFault.message : JsonFault → String
  | .endInValue => "EOF while parsing a value"
  | .endInList => "EOF while parsing a list"
  | .endInObject => "EOF while parsing an object"
  | .endInString => "EOF while parsing a string"
  | .expectedValue => "expected value"
  | .expectedWord => "expected ident"
  | .expectedColon => "expected \x60:\x60"
  | .expectedListEnd => "expected \x60,\x60 or \x60]\x60"
  | .expectedObjectEnd => "expected \x60,\x60 or \x60\x7d\x60"
  | .keyNotString => "key must be a string"
  | .trailingComma => "trailing comma"
  | .trailingCharacters => "trailing characters"
  | .controlCharacter => "control character (\\u0000-\\u001F) found while parsing a string"
  | .invalidEscape => "invalid escape"
  | .endOfEscape => "unexpected end of hex escape"
  | .loneSurrogate => "lone leading surrogate in hex escape"
  | .invalidNumber => "invalid number"
  | .numberOutOfRange => "number out of range"
  | .nestingTooDeep => "recursion limit exceeded"

/-- A place in a text. -/
structure TextPlace where
  line : Nat
  column : Nat
  deriving DecidableEq, Repr

namespace TextPlace

/-- The place after the first `offset` bytes of a text. -/
def ofOffset (text : String) (offset : Nat) : TextPlace :=
  let consumed := (text.toUTF8.toList.take offset).reverse
  ⟨1 + consumed.count 10, (consumed.takeWhile (· ≠ 10)).length⟩

/-- The wording of a place. -/
def message (place : TextPlace) : String :=
  " at line " ++ toString place.line ++ " column " ++ toString place.column

end TextPlace

/-- A fault and its place. -/
structure JsonError where
  fault : JsonFault
  place : TextPlace
  deriving DecidableEq, Repr

/-- The wording of a fault at its place. -/
def JsonError.message (e : JsonError) : String := e.fault.message ++ e.place.message

end CondExpr
