import CondExpr.Stored.Form
import CondExpr.Stored.Record

/-! # Decoding stored forms

  Reads the library's values back from JSON values.
-/

namespace CondExpr

/-! ## Section 1: Operators and operands -/

/-- A comparator. -/
def Comparator.decode (inPredicate : Bool) : Decoder Comparator := fun v => do
  let (name, value) ← variantParts v
  match ofToken? name with
  | some op => do
    checkNoValue inPredicate value
    return op
  | none => .error (.unknownVariant name (all.map token))

/-- A connective. -/
def Connective.decode : Decoder Connective := fun v => do
  let (name, value) ← variantParts v
  match ofToken? name with
  | some op => do
    checkNoValue false value
    return op
  | none => .error (.unknownVariant name (all.map token))

/-- An instant. -/
def Instant.decode : Decoder Instant
  | .text s => (Instant.read s).mapError .date
  | v => wrongType v .date

/-- An operand. -/
def Scalar.decode : Decoder Scalar := fun v => do
  let (name, value) ← variantParts v
  match name with
  | "String" => return .text (← decodeVariantValue decodeText value)
  | "Number" => return .number (← decodeVariantValue decodeNumber value)
  | "Bool" => return .boolean (← decodeVariantValue decodeBoolean value)
  | "Date" => return .date (← decodeVariantValue Instant.decode value)
  | _ => .error (.unknownVariant name ["String", "Number", "Bool", "Date"])

/-- A list of operands. -/
def decodeScalars : Decoder (List Scalar)
  | .array items => items.mapM Scalar.decode
  | v => wrongType v .sequence

/-- An attribute value. -/
def AttributeValue.decode : Decoder AttributeValue := fun v => do
  let (name, value) ← variantParts v
  match name with
  | "S" => return .text (← decodeVariantValue decodeText value)
  | "N" => return .numeral (← decodeVariantValue decodeText value)
  | "BOOL" => return .boolean (← decodeVariantValue decodeBoolean value)
  | _ => .error (.unknownVariant name ["S", "N", "BOOL"])

/-! ## Section 2: Predicates -/

/-- The attribute of a predicate. -/
def fieldField : Field String := ⟨"field", decodeText⟩

/-- The comparator of a predicate. -/
def opField : Field Comparator := ⟨"op", Comparator.decode true⟩

/-- An operand of a predicate. -/
def scalarField (name : String) : Field Scalar := ⟨name, Scalar.decode⟩

/-- A comparison, of a condition or a filter. -/
def decodeCompare (typeName : String) : Decoder (String × Comparator × Scalar) :=
  decodeRecord3 (.variant typeName "Compare") fieldField opField (scalarField "value")

/-- A range, of a condition or a filter. -/
def decodeBetween (typeName : String) : Decoder (String × Scalar × Scalar) :=
  decodeRecord3 (.variant typeName "Between") fieldField (scalarField "low") (scalarField "high")

/-- A text beginning, of a condition or a filter. -/
def decodeBeginsWith (typeName : String) : Decoder (String × String) :=
  decodeRecord2 (.variant typeName "BeginsWith") fieldField ⟨"prefix", decodeText⟩

/-- A predicate. -/
def Predicate.decode : Decoder Predicate := fun v => do
  let (name, fields) ← splitTag "Condition" operatorKey v
  match name with
  | "compare" => do
    let (field, op, value) ← decodeCompare "Condition" fields
    return .compare field op value
  | "between" => do
    let (field, low, high) ← decodeBetween "Condition" fields
    return .between field low high
  | "begins_with" => do
    let (field, start) ← decodeBeginsWith "Condition" fields
    return .beginsWith field start
  | "contains" => do
    let (field, value) ←
      decodeRecord2 (.variant "Condition" "Contains") fieldField (scalarField "value") fields
    return .contains field value
  | "exists" => return .present (← decodeRecord1 (.variant "Condition" "Exists") fieldField fields)
  | "not_exists" =>
    return .absent (← decodeRecord1 (.variant "Condition" "NotExists") fieldField fields)
  | "size" => do
    let (field, op, bound) ←
      decodeRecord3 (.variant "Condition" "Size") fieldField opField ⟨"value", decodeNumber⟩ fields
    return .size field op bound
  | "in" => do
    let (field, values) ←
      decodeRecord2 (.variant "Condition" "In") fieldField ⟨"values", decodeScalars⟩ fields
    return .oneOf field values
  | _ => .error (.unknownVariant name
      ["compare", "between", "begins_with", "contains", "exists", "not_exists", "size", "in"])

/-- A predicate of a filter. -/
def FilterPredicate.decode : Decoder FilterPredicate := fun v => do
  let (name, fields) ← splitTag "FilterCondition" operatorKey v
  match name with
  | "compare" => do
    let (field, op, value) ← decodeCompare "FilterCondition" fields
    return .compare field op value
  | "between" => do
    let (field, low, high) ← decodeBetween "FilterCondition" fields
    return .between field low high
  | "begins_with" => do
    let (field, start) ← decodeBeginsWith "FilterCondition" fields
    return .beginsWith field start
  | _ => .error (.unknownVariant name ["compare", "between", "begins_with"])

/-! ## Section 3: Trees -/

/-- Where a value to be decoded comes from. Connectives may be arrays only
    in text. -/
inductive Origin where
  /-- A decoded value. -/
  | value
  /-- A JSON text. -/
  | text
  deriving DecidableEq, Repr

namespace Json

mutual

/-- How deeply arrays and objects are nested in a value. -/
def height : Json → Nat
  | .array items => 1 + heightOfItems items
  | .object members => 1 + heightOfMembers members
  | _ => 0

/-- The greatest height of some items. -/
def heightOfItems : List Json → Nat
  | [] => 0
  | item :: rest => max item.height (heightOfItems rest)

/-- The greatest height of some members. -/
def heightOfMembers : List (String × Json) → Nat
  | [] => 0
  | (_, value) :: rest => max value.height (heightOfMembers rest)

end

end Json

namespace Expression

variable {Leaf : Type}

/-- The operands and the token of a connective. -/
def decodeJoin (origin : Origin) (decodeOperand : Decoder (Expression Leaf)) :
    Option Json → Except DecodeError (Expression Leaf)
  | none => .error (.wrongType .bareVariant .variantMembers)
  | some v =>
    if origin = .value ∧ v matches .array _ then wrongType v .variantMembers
    else do
      let (left, op, right) ←
        decodeRecord3 (.variant "ConditionExpression" "Logic") ⟨"left", decodeOperand⟩
          ⟨"op", Connective.decode⟩ ⟨"right", decodeOperand⟩ v
      return .join left op right

/-- A tree, from a value less high than the fuel. -/
def decodeWithin (origin : Origin) (decodeLeaf : Decoder Leaf) :
    Nat → Decoder (Expression Leaf)
  | 0, v => wrongType v .variant
  | fuel + 1, v => do
    let (name, value) ← variantParts v
    match name with
    | "Condition" => return .leaf (← decodeVariantValue decodeLeaf value)
    | "Logic" => decodeJoin origin (decodeWithin origin decodeLeaf fuel) value
    | "Not" => return .negation (← decodeVariantValue (decodeWithin origin decodeLeaf fuel) value)
    | _ => .error (.unknownVariant name ["Condition", "Logic", "Not"])

/-- A tree. -/
def decode (origin : Origin) (decodeLeaf : Decoder Leaf) : Decoder (Expression Leaf) :=
  fun v => decodeWithin origin decodeLeaf (v.height + 1) v

end Expression

/-- A condition. -/
def Condition.decode (origin : Origin) : Decoder Condition :=
  Expression.decode origin Predicate.decode

/-- A filter. -/
def Filter.decode (origin : Origin) : Decoder Filter :=
  Expression.decode origin FilterPredicate.decode

/-! ## Section 4: Compiled expressions and options -/

/-- The entries of a table. -/
def decodeEntries {α : Type} (decodeValue : Decoder α) :
    List (String × Json) → Except DecodeError (List (String × α))
  | [] => .ok []
  | (key, v) :: rest => do
    let a ← decodeValue v
    return (key, a) :: (← decodeEntries decodeValue rest)

/-- A table. -/
def Table.decode {α : Type} (decodeValue : Decoder α) : Decoder (Table α)
  | .object members => do return .ofList (← decodeEntries decodeValue members)
  | v => wrongType v .map

/-- A compiled expression. -/
def CompiledExpression.decode : Decoder CompiledExpression := fun v => do
  let (expression, names, values) ←
    decodeRecord3 (.plain "CompiledExpression") ⟨"expression", decodeText⟩
      ⟨"names", Table.decode decodeText⟩ ⟨"values", Table.decode AttributeValue.decode⟩ v
  return ⟨expression, names, values⟩

/-- The options that some of the fields give, over the standard ones. -/
def Options.ofFields (conditionRoot filterRoot : Option String) (checkCoverage : Option Bool) :
    Options :=
  ⟨conditionRoot.getD Options.standard.conditionRoot,
    filterRoot.getD Options.standard.filterRoot,
    checkCoverage.getD Options.standard.checkCoverage⟩

/-- The name of options in messages. -/
abbrev optionsName : String := "CompilerOptions"

/-- The root token of conditions. -/
def conditionRootField : Field String := ⟨"condition_prefix", decodeText⟩

/-- The root token of filters. -/
def filterRootField : Field String := ⟨"filter_prefix", decodeText⟩

/-- Whether coverage is checked. -/
def checkCoverageField : Field Bool := ⟨"validate_output", decodeBoolean⟩

/-- An optional item of an array. -/
def Field.item? {α : Type} (f : Field α) (items : List Json) (index : Nat) :
    Except DecodeError (Option α) :=
  match items[index]? with
  | some v => (f.decode v).map some
  | none => .ok none

/-- Options. Fields that are not there have their standard values. -/
def Options.decode : Decoder Options
  | .object members => do
    let conditionRoot ← conditionRootField.member? members
    let filterRoot ← filterRootField.member? members
    let checkCoverage ← checkCoverageField.member? members
    return .ofFields conditionRoot filterRoot checkCoverage
  | .array items => do
    let conditionRoot ← conditionRootField.item? items 0
    let filterRoot ← filterRootField.item? items 1
    let checkCoverage ← checkCoverageField.item? items 2
    checkLength (.plain optionsName) 3 items
    return .ofFields conditionRoot filterRoot checkCoverage
  | v => wrongType v (.record optionsName)

end CondExpr
