import CondExpr.Document.Error
import CondExpr.Json.Reader
import CondExpr.Yaml.Node.Value

/-! # Condition documents

  A condition is written down as a JSON value:

  - `["age", ">=", 21]`: a predicate, as attribute name, operator and
    operands;
  - `[left, "AND", right]`: a connective, when the first item is itself an
    array or an object;
  - an object with the one key `NOT`: a negation.

  The reader reports the first fault of a fixed walk. Nodes come before
  what is below them and left before right; at a connective its token comes
  first; at a predicate name, operator, number of operands and operands are
  checked in this order.
-/

namespace CondExpr

/-- The kind of a value. -/
def Json.kind : Json → JsonKind
  | .null => .null
  | .boolean _ => .boolean
  | .integer _ | .real _ => .number
  | .text _ => .text
  | .array _ => .array
  | .object _ => .object

/-! ## Section 1: Operators of documents -/

/-- The operators a predicate can be written with. -/
inductive PredicateForm where
  | compare (op : Comparator)
  | between | beginsWith | contains | present | absent | size | oneOf
  deriving DecidableEq, Repr

namespace PredicateForm

/-- The token of an operator. -/
def token : PredicateForm → String
  | .compare op => op.token
  | .between => "between"
  | .beginsWith => "begins_with"
  | .contains => "contains"
  | .present => "exists"
  | .absent => "not_exists"
  | .size => "size"
  | .oneOf => "in"

/-- How many operands an operator takes. A size test takes its comparator
    and its bound, a list of values counts as one. -/
def arity : PredicateForm → Nat
  | .compare _ | .beginsWith | .contains | .oneOf => 1
  | .between | .size => 2
  | .present | .absent => 0

/-- The operators. -/
def all : List PredicateForm :=
  Comparator.all.map .compare ++
    [.between, .beginsWith, .contains, .present, .absent, .size, .oneOf]

/-- The operator of a token. -/
def ofToken? (token : String) : Option PredicateForm :=
  all.find? fun form => form.token = token

end PredicateForm

/-! ## Section 2: Predicates -/

namespace Document

/-- An operand that is text, a number or a truth value. -/
def readScalar (field : String) : Json → Except DocumentError Scalar
  | .text s => .ok (.text s)
  | .boolean b => .ok (.boolean b)
  | .integer n => .ok (.number (.ofInt n))
  | .real x => .ok (.number x)
  | v => .error (.operand field (.notScalar v.kind))

/-- The comparator of a size test. -/
def readComparator (field : String) : Json → Except DocumentError Comparator
  | .text token =>
    match Comparator.ofToken? token with
    | some op => .ok op
    | none => .error (.unsupportedOperator token)
  | v => .error (.operand field (.comparator v.kind))

/-- The bound of a size test. -/
def readBound (field : String) (v : Json) : Except DocumentError Binary64 :=
  match v.number? with
  | some x => .ok x
  | none => .error (.operand field (.bound v.kind))

/-- The predicate of an operator and its operands. -/
def readOperands (field : String) (form : PredicateForm) (operands : List Json) :
    Except DocumentError Predicate :=
  match form, operands with
  | .compare op, [v] => do return .compare field op (← readScalar field v)
  | .between, [low, high] => do
    let low ← readScalar field low
    let high ← readScalar field high
    return .between field low high
  | .beginsWith, [.text start] => .ok (.beginsWith field start)
  | .beginsWith, [v] => .error (.operand field (.beginning v.kind))
  | .contains, [v] => do return .contains field (← readScalar field v)
  | .present, [] => .ok (.present field)
  | .absent, [] => .ok (.absent field)
  | .size, [op, bound] => do
    let op ← readComparator field op
    let bound ← readBound field bound
    return .size field op bound
  | .oneOf, [.array []] => .error (.operand field .noValues)
  | .oneOf, [.array values] => do return .oneOf field (← values.mapM (readScalar field))
  | .oneOf, [v] => .error (.operand field (.values v.kind))
  | form, operands => .error (.arity field form.token form.arity operands.length)

/-- The predicate of an attribute name and what follows it. -/
def readTest (field : String) : List Json → Except DocumentError Predicate
  | [] => .error (.shape (.noOperator field))
  | .text token :: operands =>
    match PredicateForm.ofToken? token with
    | some form => readOperands field form operands
    | none => .error (.unsupportedOperator token)
  | v :: _ => .error (.shape (.operatorKind field v.kind))

/-- The predicate of an array. -/
def readPredicate : List Json → Except DocumentError Predicate
  | [] => .error (.shape .noField)
  | .text field :: rest =>
    if field = "" then .error (.shape .emptyField) else readTest field rest
  | v :: _ => .error (.shape (.fieldKind v.kind))

/-! ## Section 3: Conditions and filters -/

/-- A connective, from its token. -/
def readConnective : Json → Except DocumentError Connective
  | .text token =>
    match Connective.ofToken? token with
    | some op => .ok op
    | none => .error (.unsupportedOperator token)
  | v => .error (.shape (.connectiveKind v.kind))

/-- The value is a node, and not a leaf's attribute name. -/
def isNode : Json → Bool
  | .array _ | .object _ => true
  | _ => false

/-- Reads a node below which there is room for a number of levels, itself
    included. -/
def readNode : Nat → Json → Except DocumentError Condition
  | 0, _ => .error (.shape .tooDeep)
  | room + 1, v =>
    match v with
    | .object [(key, inner)] =>
      if key = "NOT" then do return .negation (← readNode room inner)
      else .error (.shape .notNegation)
    | .object members => .error (.shape (.keyCount members.length))
    | .array [left, op, right] =>
      if isNode left then do
        let op ← readConnective op
        let left ← readNode room left
        let right ← readNode room right
        return .join left op right
      else do return .leaf (← readPredicate [left, op, right])
    | .array items => do return .leaf (← readPredicate items)
    | v => .error (.shape (.notNode v.kind))

/-- Reads a condition from a decoded document. -/
def read (v : Json) : Except DocumentError Condition := readNode (nestingLimit + 1) v

/-- Makes a condition that has been read into a filter. -/
def asFilter (c : Condition) : Except DocumentError Filter :=
  c.narrow.mapError fun e => .notAllowed e.operator

/-- Reads a filter from a decoded document. Faults of the document come
    before operators that filters cannot hold. -/
def readFilter (v : Json) : Except DocumentError Filter := do asFilter (← read v)

/-- Reads a condition from JSON text. -/
def readJson (text : String) : Except DocumentError Condition :=
  match Json.read text with
  | .ok v => read v
  | .error e => .error (.json e)

/-- Reads a filter from JSON text. -/
def readFilterJson (text : String) : Except DocumentError Filter := do
  asFilter (← readJson text)

/-- Reads a condition from YAML text. -/
def readYaml (text : String) : Except DocumentError Condition :=
  match Yaml.read? text with
  | some v => read v
  | none => .error .yaml

/-- Reads a filter from YAML text. -/
def readFilterYaml (text : String) : Except DocumentError Filter := do
  asFilter (← readYaml text)

end Document
end CondExpr
