import CondExpr.Expression.Filter
import CondExpr.Json.Error

/-! # Faults in condition documents

  What can be wrong with a condition document. A document that comes as
  text can also be no text of its format.
-/

namespace CondExpr

/-- The kinds of JSON values that messages tell apart. -/
inductive JsonKind where
  | null | boolean | number | text | array | object
  deriving DecidableEq, Repr

/-- The kind of a value, in words. -/
def JsonKind.words : JsonKind → String
  | .null => "null"
  | .boolean => "a boolean"
  | .number => "a number"
  | .text => "a string"
  | .array => "an array"
  | .object => "an object"

/-- A node that is neither a predicate nor a connective nor a negation. -/
inductive ShapeFault where
  /-- More connectives and negations above the node than the limit allows. -/
  | tooDeep
  /-- An object with another number of keys than one. -/
  | keyCount (count : Nat)
  /-- An object whose only key is not `NOT`. -/
  | notNegation
  /-- Neither an array nor an object. -/
  | notNode (found : JsonKind)
  /-- No text where the connective stands. -/
  | connectiveKind (found : JsonKind)
  /-- An empty array. -/
  | noField
  /-- An attribute name without characters. -/
  | emptyField
  /-- No text where the attribute name stands. -/
  | fieldKind (found : JsonKind)
  /-- Nothing after the attribute name. -/
  | noOperator (field : String)
  /-- No text where the operator stands. -/
  | operatorKind (field : String) (found : JsonKind)
  deriving DecidableEq, Repr

/-- An operand that cannot be used with its operator. -/
inductive OperandFault where
  /-- A beginning that is no text. -/
  | beginning (found : JsonKind)
  /-- No text where the comparator of a size test stands. -/
  | comparator (found : JsonKind)
  /-- The bound of a size test is no number. -/
  | bound (found : JsonKind)
  /-- A list of values that is empty. -/
  | noValues
  /-- A list of values that is no array. -/
  | values (found : JsonKind)
  /-- An operand that is null, an array or an object. -/
  | notScalar (found : JsonKind)
  deriving DecidableEq, Repr

/-- Why a document is no condition, or no filter. -/
inductive DocumentError where
  /-- The text is no JSON. -/
  | json (cause : JsonError)
  /-- The text is no YAML document. -/
  | yaml
  /-- An operator or connective that there is not. -/
  | unsupportedOperator (token : String)
  /-- An operator that filters cannot hold. -/
  | notAllowed (operator : String)
  | shape (fault : ShapeFault)
  | operand (field : String) (fault : OperandFault)
  /-- An operator with another number of operands than it takes. -/
  | arity (field operator : String) (expected actual : Nat)
  deriving DecidableEq, Repr

/-- The wording of a shape fault. -/
def ShapeFault.message : ShapeFault → String
  | .tooDeep => "document nests deeper than " ++ toString nestingLimit ++ " levels"
  | .keyCount count => "negation object must have exactly one key, got " ++ toString count
  | .notNegation => "object nodes must be of the form \x7b\"NOT\": <expression>\x7d"
  | .notNode found => "expected an array or a NOT object, got " ++ found.words
  | .connectiveKind found => "connective must be \"AND\" or \"OR\", got " ++ found.words
  | .noField => "empty condition"
  | .emptyField => "empty field name"
  | .fieldKind found => "field name must be a string, got " ++ found.words
  | .noOperator field => "missing operator for field '" ++ field ++ "'"
  | .operatorKind field found =>
    "operator for field '" ++ field ++ "' must be a string, got " ++ found.words

/-- The wording of an operand fault. -/
def OperandFault.message : OperandFault → String
  | .beginning found => "begins_with expects a string, got " ++ found.words
  | .comparator found => "size expects a comparator, got " ++ found.words
  | .bound found => "size expects a number, got " ++ found.words
  | .noValues => "in expects at least one value"
  | .values found => "in expects an array, got " ++ found.words
  | .notScalar found => "operands must be scalars, got " ++ found.words

/-- The wording of an operator that there is not. -/
def unsupportedOperatorMessage (token : String) : String :=
  "Operator " ++ token ++ " is not defined"

/-- The wording of a document error. YAML faults are told apart no further. -/
def DocumentError.message : DocumentError → String
  | .json cause => "JSON parsing error: " ++ cause.message
  | .yaml => "YAML parsing error"
  | .unsupportedOperator token => unsupportedOperatorMessage token
  | .notAllowed operator => (NotFilterable.mk operator).message
  | .shape fault => "Invalid expression shape: " ++ fault.message
  | .operand field fault => "Invalid value for field '" ++ field ++ "': " ++ fault.message
  | .arity field operator expected actual =>
    "Operator " ++ operator ++ " on field '" ++ field ++ "' expects " ++ toString expected ++
      " operand(s), got " ++ toString actual

end CondExpr
