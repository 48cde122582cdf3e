import CondExpr.Instant.Reader
import CondExpr.Json.Basic
import CondExpr.Number.Notation
import CondExpr.Text.Shown

/-! # Faults in stored values

  Why a JSON value is not the stored form of what is looked for.
-/

namespace CondExpr

/-- What was found where something else was expected. -/
inductive Found where
  | null
  | boolean (value : Bool)
  | integer (value : Int)
  | real (value : Binary64)
  | text (value : String)
  | sequence
  | map
  /-- The name of a variant without its value. -/
  | bareVariant
  deriving DecidableEq, Repr

/-- What was found, in words. -/
def Found.words : Found → String
  | .null => "null"
  | .boolean b => "boolean \x60" ++ (if b then "true" else "false") ++ "\x60"
  | .integer n => "integer \x60" ++ toString n ++ "\x60"
  | .real x => "floating point \x60" ++ x.dataText ++ "\x60"
  | .text s => "string " ++ shownText s
  | .sequence => "sequence"
  | .map => "map"
  | .bareVariant => "unit variant"

/-- A value as something found. -/
def Found.ofJson : Json → Found
  | .null => .null
  | .boolean b => .boolean b
  | .integer n => .integer n
  | .real x => .real x
  | .text s => .text s
  | .array _ => .sequence
  | .object _ => .map

/-- What was expected. -/
inductive Expected where
  | text
  | boolean
  | number
  | null
  | map
  | sequence
  | date
  /-- A text, or an object with one member. -/
  | variant
  /-- The name of a variant, as a text. -/
  | variantName
  /-- The value that belongs to a variant. -/
  | variantValue
  /-- The members that belong to a variant. -/
  | variantMembers
  /-- A record of the given name. -/
  | record (name : String)
  /-- A variant of the given type that carries its name as a member. -/
  | tagged (typeName : String)
  deriving DecidableEq, Repr

/-- What was expected, in words. -/
def Expected.words : Expected → String
  | .text => "a string"
  | .boolean => "a boolean"
  | .number => "f64"
  | .null => "unit"
  | .map => "a map"
  | .sequence => "a sequence"
  | .date => "an RFC 3339 formatted date and time string"
  | .variant => "string or map"
  | .variantName => "variant identifier"
  | .variantValue => "newtype variant"
  | .variantMembers => "struct variant"
  | .record name => "struct " ++ name
  | .tagged typeName => "internally tagged enum " ++ typeName

/-- Why a value is not what it should be. -/
inductive DecodeError where
  | wrongType (found : Found) (expected : Expected)
  /-- A variant is an object with one member, and this one has another number. -/
  | notOneMember
  | unknownVariant (name : String) (known : List String)
  | missingField (name : String)
  | duplicateField (name : String)
  /-- An array that ends before the last field of a record. -/
  | tooShort (length : Nat) (record : String) (fields : Nat)
  /-- A variant given as an array with more items than fields. -/
  | tooLong (length : Nat) (fields : Nat)
  /-- A record given as an array with more items than fields. -/
  | excess (length : Nat)
  | date (cause : InstantError)
  deriving DecidableEq, Repr

/-- A number of elements, in words. -/
def elementsText (n : Nat) : String :=
  if n = 1 then "1 element" else toString n ++ " elements"

/-- A choice between names, in words. -/
def choiceText : List String → String
  | [a, b] => "\x60" ++ a ++ "\x60 or \x60" ++ b ++ "\x60"
  | names => "one of " ++ ", ".intercalate (names.map fun name => "\x60" ++ name ++ "\x60")

/-- The wording of a decoding error. -/
def DecodeError.message : DecodeError → String
  | .wrongType found expected => "invalid type: " ++ found.words ++ ", expected " ++ expected.words
  | .notOneMember => "invalid value: map, expected map with a single key"
  | .unknownVariant name known =>
    "unknown variant \x60" ++ name ++ "\x60, expected " ++ choiceText known
  | .missingField name => "missing field \x60" ++ name ++ "\x60"
  | .duplicateField name => "duplicate field \x60" ++ name ++ "\x60"
  | .tooShort length record fields =>
    "invalid length " ++ toString length ++ ", expected " ++ record ++ " with " ++
      elementsText fields
  | .tooLong length fields =>
    "invalid length " ++ toString length ++ ", expected " ++ elementsText fields ++ " in sequence"
  | .excess length =>
    "invalid length " ++ toString length ++ ", expected fewer elements in array"
  | .date cause => cause.message

/-- A value of the wrong type. -/
def wrongType {α : Type} (v : Json) (expected : Expected) : Except DecodeError α :=
  .error (.wrongType (.ofJson v) expected)

end CondExpr
