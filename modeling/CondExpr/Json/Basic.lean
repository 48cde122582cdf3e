import CondExpr.Number.Binary64
import CondExpr.Table

/-! # JSON values

  The values that JSON texts denote. Integers that fit 64 bits are kept
  exactly; all other numbers are doubles.
-/

namespace CondExpr

/-- A JSON value. In a *decoded* value the members of every object are in
    ascending order of their keys, and no key occurs twice. -/
inductive Json where
  | null
  | boolean (value : Bool)
  | integer (value : Int)
  | real (value : Binary64)
  | text (value : String)
  | array (items : List Json)
  | object (members : List (String × Json))
  deriving BEq, Repr, Inhabited

namespace Json

/-- The number a JSON value is, as a double. -/
def number? : Json → Option Binary64
  | .integer n => some (.ofInt n)
  | .real x => some x
  | _ => none

mutual

/-- The decoded form of a value as it was written: members sorted by key,
    and of members with one key the last. -/
def decoded : Json → Json
  | .array items => .array (decodedItems items)
  | .object members => .object (Table.ofList (decodedMembers members)).entries
  | v => v

/-- The decoded forms of the items of an array. -/
def decodedItems : List Json → List Json
  | [] => []
  | item :: rest => item.decoded :: decodedItems rest

/-- The decoded forms of the members of an object. -/
def decodedMembers : List (String × Json) → List (String × Json)
  | [] => []
  | (key, value) :: rest => (key, value.decoded) :: decodedMembers rest

end

end Json
end CondExpr
