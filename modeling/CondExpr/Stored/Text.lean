import CondExpr.Json.Reader
import CondExpr.Stored.Decode

/-! # Stored forms in JSON text

  Reads stored values from text. Trees and records are read member by
  member, and a member that is no field is skipped: it only has to be a
  well-formed value. All other values are read as a whole. Members that
  occur twice are kept, so that decoding finds them.
-/

namespace CondExpr.Json

/-- Reads the value of a member or item, or skips it. -/
abbrev PartReader := Cursor → Except FaultAt (Option Json × Cursor)

/-- A value that is kept. -/
def kept (result : Except FaultAt (Json × Cursor)) : Except FaultAt (Option Json × Cursor) :=
  result.map fun (v, c) => (some v, c)

/-- Any value at a cursor. -/
def readAny (room : Nat) : PartReader := fun c => kept (readValue .keep c.fuel room c)

/-- A value that is only skipped. -/
def skipAny : PartReader := fun c => do
  let (_, c) ← readValue .skip c.fuel fullRoom c
  return (none, c)

/-- The members of an object up to its end. What is read for each is chosen
    by its key. -/
def readMembersBy (part : String → PartReader) :
    Nat → List (String × Json) → Bool → Cursor → Except FaultAt (Json × Cursor)
  | 0, _, _, c => c.fail .endInObject
  | fuel + 1, before, first, c => do
    match ← nextMember .keep first c with
    | (.done, c) => return (.object before.reverse, c)
    | (.more, c) => do
      let (key, c) ← readString .keep c
      let c ← readColon c
      match ← part key c with
      | (some v, c) => readMembersBy part fuel ((key, v) :: before) false c
      | (none, c) => readMembersBy part fuel before false c

/-- An object whose members are read as chosen by their keys; any other
    value is read as a whole. -/
def readObjectBy (part : Nat → String → PartReader) (room : Nat) (c : Cursor) :
    Except FaultAt (Json × Cursor) :=
  let c := c.skipBlanks
  if c.at '\x7b' then do
    let inside ← opened .keep room c
    readMembersBy (part inside) c.fuel [] true c.advance
  else readValue .keep c.fuel room c

/-- A record, of which only the fields are read. -/
def readRecord (fields : List String) (room : Nat) (c : Cursor) :
    Except FaultAt (Json × Cursor) :=
  readObjectBy (fun inside key => if fields.contains key then readAny inside else skipAny) room c

mutual

/-- A tree. -/
def readTree : Nat → Nat → Cursor → Except FaultAt (Json × Cursor)
  | 0, _, c => c.fail .endInValue
  | fuel + 1, room, c =>
    readObjectBy (fun inside key c =>
      match key with
      | "Logic" => kept (readJoin fuel inside c)
      | "Not" => kept (readTree fuel inside c)
      | _ => readAny inside c) room c

/-- The value of a connective. -/
def readJoin : Nat → Nat → Cursor → Except FaultAt (Json × Cursor)
  | 0, _, c => c.fail .endInValue
  | fuel + 1, room, c => do
    let c := c.skipBlanks
    if c.at '[' then do
      let inside ← opened .keep room c
      readJoinItems fuel inside [] c.advance
    else
      readObjectBy (fun inside key c =>
        match key with
        | "left" => kept (readTree fuel inside c)
        | "right" => kept (readTree fuel inside c)
        | "op" => readAny inside c
        | _ => skipAny c) room c

/-- The value of a connective as an array: its operands stand first and
    last. -/
def readJoinItems : Nat → Nat → List Json → Cursor → Except FaultAt (Json × Cursor)
  | 0, _, _, c => c.fail .endInList
  | fuel + 1, room, before, c => do
    match ← nextItem .keep before.isEmpty c with
    | (.done, c) => return (.array before.reverse, c)
    | (.more, c) => do
      let (item, c) ←
        if before.length = 1 then readValue .keep c.fuel room c else readTree fuel room c
      readJoinItems fuel room (item :: before) c

end

/-- What a text that holds one value is read as. -/
def readWhole (read : Cursor → Except FaultAt (Json × Cursor)) (text : String) :
    Except FaultAt Json := do
  let (v, c) ← read (.start text)
  readEnd c
  return v

end CondExpr.Json

namespace CondExpr

/-- Why a text is not that of a stored value. -/
inductive StoredTextError where
  | json (cause : Json.FaultAt)
  | decode (cause : DecodeError)
  deriving DecidableEq, Repr

/-- Reads a stored value from a text. -/
def decodeTextAs {α : Type} (read : Json.Cursor → Except Json.FaultAt (Json × Json.Cursor))
    (decode : Decoder α) (text : String) : Except StoredTextError α := do
  let v ← (Json.readWhole read text).mapError .json
  (decode v).mapError .decode

/-- Any value, read as a whole. -/
def readPlain (c : Json.Cursor) : Except Json.FaultAt (Json × Json.Cursor) :=
  Json.readValue .keep c.fuel Json.fullRoom c

/-- Reads a comparator from text. -/
def Comparator.ofText : String → Except StoredTextError Comparator :=
  decodeTextAs readPlain (Comparator.decode false)

/-- Reads a connective from text. -/
def Connective.ofText : String → Except StoredTextError Connective :=
  decodeTextAs readPlain Connective.decode

/-- Reads an operand from text. -/
def Scalar.ofText : String → Except StoredTextError Scalar :=
  decodeTextAs readPlain Scalar.decode

/-- Reads an attribute value from text. -/
def AttributeValue.ofText : String → Except StoredTextError AttributeValue :=
  decodeTextAs readPlain AttributeValue.decode

/-- Reads a predicate from text. -/
def Predicate.ofText : String → Except StoredTextError Predicate :=
  decodeTextAs readPlain Predicate.decode

/-- Reads a predicate of a filter from text. -/
def FilterPredicate.ofText : String → Except StoredTextError FilterPredicate :=
  decodeTextAs readPlain FilterPredicate.decode

/-- A tree at the start of a text. -/
def readWholeTree (c : Json.Cursor) : Except Json.FaultAt (Json × Json.Cursor) :=
  Json.readTree c.fuel Json.fullRoom c

/-- Reads a condition from text. -/
def Condition.ofText : String → Except StoredTextError Condition :=
  decodeTextAs readWholeTree (Condition.decode .text)

/-- Reads a filter from text. -/
def Filter.ofText : String → Except StoredTextError Filter :=
  decodeTextAs readWholeTree (Filter.decode .text)

/-- Reads a compiled expression from text. -/
def CompiledExpression.ofText : String → Except StoredTextError CompiledExpression :=
  decodeTextAs (Json.readRecord ["expression", "names", "values"] Json.fullRoom)
    CompiledExpression.decode

end CondExpr
