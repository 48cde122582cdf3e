import CondExpr.Stored.Error

/-! # Records and variants in JSON

  Common parts of decoding. A record is an object, in which other members
  are ignored, or an array of its fields in order. Of several faults in the
  members of an object the one with the least name is reported, and missing
  fields only after these, in the order of the fields. In an array faults
  are reported from left to right.
-/

namespace CondExpr

/-- Decodes a JSON value. -/
abbrev Decoder (α : Type) := Json → Except DecodeError α

/-! ## Section 1: Simple values -/

/-- A text. -/
def decodeText : Decoder String
  | .text s => .ok s
  | v => wrongType v .text

/-- A truth value. -/
def decodeBoolean : Decoder Bool
  | .boolean b => .ok b
  | v => wrongType v .boolean

/-- A number. -/
def decodeNumber (v : Json) : Except DecodeError Binary64 :=
  match v.number? with
  | some x => .ok x
  | none => wrongType v .number

/-! ## Section 2: Fields -/

/-- A field of a record. -/
structure Field (α : Type) where
  name : String
  decode : Decoder α

/-- A kind of record, as messages name it. -/
inductive RecordKind where
  /-- A record of its own. -/
  | plain (name : String)
  /-- The fields of a variant. -/
  | variant (typeName variantName : String)
  deriving DecidableEq, Repr

namespace RecordKind

/-- The kind, in words. -/
def words : RecordKind → String
  | .plain name => "struct " ++ name
  | .variant typeName variantName => "struct variant " ++ typeName ++ "::" ++ variantName

/-- What is expected where such a record stands. -/
def expected : RecordKind → Expected
  | .plain name => .record name
  | .variant .. => .variantMembers

/-- The error of an array with too many items. -/
def excess (kind : RecordKind) (length fields : Nat) : DecodeError :=
  match kind with
  | .plain _ => .excess length
  | .variant .. => .tooLong length fields

end RecordKind

/-- The field as a member of an object, if it is there. -/
def Field.member? {α : Type} (f : Field α) (members : List (String × Json)) :
    Except DecodeError (Option α) :=
  match members.filter (·.1 = f.name) with
  | [] => .ok none
  | [(_, v)] => (f.decode v).map some
  | _ => .error (.duplicateField f.name)

/-- The field, which must be there. -/
def Field.required {α : Type} (f : Field α) : Option α → Except DecodeError α
  | some a => .ok a
  | none => .error (.missingField f.name)

/-- The field as an item of an array. -/
def Field.item {α : Type} (f : Field α) (kind : RecordKind) (fields : Nat) (items : List Json)
    (index : Nat) : Except DecodeError α :=
  match items[index]? with
  | some v => f.decode v
  | none => .error (.tooShort index kind.words fields)

/-- The fault of a result, under a name. -/
def faultOf {α : Type} (name : String) : Except DecodeError α → List (String × DecodeError)
  | .ok _ => []
  | .error e => [(name, e)]

/-- Fails with the fault of the least name, if there is a fault. -/
def checkFaults : List (String × DecodeError) → Except DecodeError Unit
  | [] => .ok ()
  | first :: rest =>
    .error (rest.foldl (fun least fault => if fault.1 < least.1 then fault else least) first).2

/-- Fails if an array has more items than there are fields. -/
def checkLength (kind : RecordKind) (fields : Nat) (items : List Json) : Except DecodeError Unit :=
  if fields < items.length then .error (kind.excess items.length fields) else .ok ()

/-! ## Section 3: Records -/

/-- A record with one field. -/
def decodeRecord1 {α : Type} (kind : RecordKind) (f : Field α) : Decoder α
  | .object members => do
    let a ← f.member? members
    f.required a
  | .array items => do
    let a ← f.item kind 1 items 0
    checkLength kind 1 items
    return a
  | v => wrongType v kind.expected

/-- A record with two fields. -/
def decodeRecord2 {α β : Type} (kind : RecordKind) (f : Field α) (g : Field β) : Decoder (α × β)
  | .object members => do
    let a := f.member? members
    let b := g.member? members
    checkFaults (faultOf f.name a ++ faultOf g.name b)
    let a ← f.required (← a)
    let b ← g.required (← b)
    return (a, b)
  | .array items => do
    let a ← f.item kind 2 items 0
    let b ← g.item kind 2 items 1
    checkLength kind 2 items
    return (a, b)
  | v => wrongType v kind.expected

/-- A record with three fields. -/
def decodeRecord3 {α β γ : Type} (kind : RecordKind) (f : Field α) (g : Field β) (h : Field γ) :
    Decoder (α × β × γ)
  | .object members => do
    let a := f.member? members
    let b := g.member? members
    let c := h.member? members
    checkFaults (faultOf f.name a ++ faultOf g.name b ++ faultOf h.name c)
    let a ← f.required (← a)
    let b ← g.required (← b)
    let c ← h.required (← c)
    return (a, b, c)
  | .array items => do
    let a ← f.item kind 3 items 0
    let b ← g.item kind 3 items 1
    let c ← h.item kind 3 items 2
    checkLength kind 3 items
    return (a, b, c)
  | v => wrongType v kind.expected

/-! ## Section 4: Variants -/

/-- The name of a variant and the value that comes with it. -/
def variantParts : Decoder (String × Option Json)
  | .text name => .ok (name, none)
  | .object [(name, value)] => .ok (name, some value)
  | .object _ => .error .notOneMember
  | v => wrongType v .variant

/-- Decodes the value of a variant that must have one. -/
def decodeVariantValue {α : Type} (decode : Decoder α) : Option Json → Except DecodeError α
  | some v => decode v
  | none => .error (.wrongType .bareVariant .variantValue)

/-- Accepts what may stand for the value of a variant without one: nothing,
    null, or, inside a predicate, an object without members. -/
def checkNoValue (inPredicate : Bool) : Option Json → Except DecodeError Unit
  | none => .ok ()
  | some .null => .ok ()
  | some (.object []) => if inPredicate then .ok () else wrongType (.object []) .null
  | some v => wrongType v .null

/-- The name of a variant that is a member of its object or the first item
    of its array, and the rest of the object or array. -/
def splitTag (typeName key : String) : Decoder (String × Json)
  | .object members =>
    match members.filter (·.1 = key) with
    | [] => .error (.missingField key)
    | [(_, .text name)] => .ok (name, .object (members.filter (·.1 ≠ key)))
    | [(_, v)] => wrongType v .variantName
    | _ => .error (.duplicateField key)
  | .array [] => .error (.missingField key)
  | .array (.text name :: rest) => .ok (name, .array rest)
  | .array (v :: _) => wrongType v .variantName
  | v => wrongType v (.tagged typeName)

end CondExpr
