import CondExpr.Json.Reader
import CondExpr.Stored.Decode

/-! # Options in JSON text

  Reads options from a text: an object, or an array of up to three values.
  Fields are checked as they are met, so the first fault of the text is
  reported, with its place, whether it is one of form or of type. Members
  that are no fields are skipped.
-/

namespace CondExpr

/-- Why a text holds no acceptable options. -/
inductive OptionsError where
  /-- The text is not well-formed. -/
  | json (cause : JsonError)
  /-- Something in the text is not what it should be. -/
  | decode (cause : DecodeError) (place : TextPlace)
  /-- The text is no YAML document, or not one of options. -/
  | yaml
  /-- The root tokens are refused. -/
  | root (cause : RootError)
  deriving DecidableEq, Repr

/-- The wording of an options error. YAML faults are told apart no further. -/
def OptionsError.message : OptionsError → String
  | .json cause => "Configuration error: " ++ cause.message
  | .decode cause place => "Configuration error: " ++ cause.message ++ place.message
  | .yaml => "Configuration error"
  | .root cause => cause.message

namespace Options

open Json

/-- A fault of form or of type, and the number of bytes before its place. -/
inductive TextFault where
  | form (fault : FaultAt)
  | type (fault : DecodeError) (offset : Nat)
  deriving DecidableEq, Repr

/-- A fault of form. -/
def formFault {α : Type} (result : Except FaultAt α) : Except TextFault α :=
  result.mapError .form

/-- A value that decodes to a text or a truth value. The place of a value of
    another type is its end, for arrays and objects their start. -/
def readField {α : Type} (decode : Decoder α) (c : Cursor) : Except TextFault (α × Cursor) := do
  let c := c.skipBlanks
  let (v, after) ←
    if c.at '[' then pure (Json.array [], c)
    else if c.at '\x7b' then pure (Json.object [], c)
    else formFault (readValue .keep c.fuel fullRoom c)
  match decode v with
  | .ok a => return (a, after)
  | .error e => .error (.type e after.offset)

/-- The fields that have been met so far. -/
structure Given where
  conditionRoot : Option String := none
  filterRoot : Option String := none
  checkCoverage : Option Bool := none
  deriving DecidableEq, Repr

/-- The options of the fields met. -/
def Given.options (p : Given) : Options :=
  .ofFields p.conditionRoot p.filterRoot p.checkCoverage

/-- A field that has been met before. The place is where the object would
    go on: after blanks, and after its end. -/
def duplicate {α : Type} (name : String) (c : Cursor) : Except TextFault α :=
  let c := c.skipBlanks
  let c := if c.at '\x7d' then c.advance else c
  .error (.type (.duplicateField name) c.offset)

/-- Reads the value of a field that is met for the first time. -/
def readOnce {α : Type} (field : Field α) (old : Option α) (c : Cursor) :
    Except TextFault (Option α × Cursor) :=
  if old.isSome then duplicate field.name c
  else do
    let c ← formFault (readColon c)
    let (a, c) ← readField field.decode c
    return (some a, c)

/-- Reads the member of a key: a field, or something to skip. -/
def readMember (p : Given) (key : String) (c : Cursor) : Except TextFault (Given × Cursor) := do
  if key = conditionRootField.name then do
    let (conditionRoot, c) ← readOnce conditionRootField p.conditionRoot c
    return ({ p with conditionRoot }, c)
  else if key = filterRootField.name then do
    let (filterRoot, c) ← readOnce filterRootField p.filterRoot c
    return ({ p with filterRoot }, c)
  else if key = checkCoverageField.name then do
    let (checkCoverage, c) ← readOnce checkCoverageField p.checkCoverage c
    return ({ p with checkCoverage }, c)
  else do
    let c ← formFault (readColon c)
    let (_, c) ← formFault (readValue .skip c.fuel fullRoom c)
    return (p, c)

/-- The members of an object up to its end. -/
def readFields : Nat → Given → Bool → Cursor → Except TextFault (Given × Cursor)
  | 0, _, _, c => formFault (c.fail .endInObject)
  | fuel + 1, p, first, c => do
    match ← formFault (nextMember .keep first c) with
    | (.done, c) => return (p, c)
    | (.more, c) => do
      let (key, c) ← formFault (readString .keep c)
      let (p, c) ← readMember p key c
      readFields fuel p false c

/-- An item of an array, if the array goes on. -/
def readOptionalItem {α : Type} (decode : Decoder α) (first : Bool) (c : Cursor) :
    Except TextFault (Option α × Cursor) := do
  match ← formFault (nextItem .keep first c) with
  | (.done, _) => return (none, c)
  | (.more, c) => do
    let (a, c) ← readField decode c
    return (some a, c)

/-- The end of an array of which all fields have been read. -/
def readArrayEnd (c : Cursor) : Except FaultAt Cursor :=
  let c := c.skipBlanks
  if c.rest.isEmpty then c.fail .endInList
  else if c.at ']' then .ok c.advance
  else if c.at ',' then
    let c := c.advance.skipBlanks
    c.failNext (if c.at ']' then .trailingComma else .trailingCharacters)
  else c.failNext .trailingCharacters

/-- Options at the start of a text. -/
def readFrom (c : Cursor) : Except TextFault (Options × Cursor) := do
  let c := c.skipBlanks
  if c.at '[' then do
    let c := c.advance
    let (conditionRoot, c) ← readOptionalItem decodeText true c
    let (filterRoot, c) ← readOptionalItem decodeText false c
    let (checkCoverage, c) ← readOptionalItem decodeBoolean false c
    let c ← formFault (readArrayEnd c)
    return (.ofFields conditionRoot filterRoot checkCoverage, c)
  else if c.at '\x7b' then do
    let (p, c) ← readFields c.fuel {} true c.advance
    return (p.options, c)
  else do
    let (v, after) ← formFault (readValue .keep c.fuel fullRoom c)
    .error (.type (.wrongType (.ofJson v) (.record optionsName)) after.offset)

/-- Reads options from a text, without accepting them yet. -/
def readText (text : String) : Except TextFault Options := do
  let (o, c) ← readFrom (.start text)
  formFault (readEnd c)
  return o

/-- Accepts options that have been read. -/
def accept (o : Options) : Except OptionsError Options :=
  match o.check with
  | .ok () => .ok o
  | .error e => .error (.root e)

/-- Reads options from JSON text. -/
def ofJsonText (text : String) : Except OptionsError Options :=
  match readText text with
  | .ok o => o.accept
  | .error (.form e) => .error (.json (e.inText text))
  | .error (.type e offset) => .error (.decode e (.ofOffset text offset))

end Options
end CondExpr
