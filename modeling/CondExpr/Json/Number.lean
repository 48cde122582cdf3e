import CondExpr.Json.Basic

/-! # The numbers in a JSON value

  One number may be written as an integer or as a double. A value is
  *rounded* by writing all its numbers as doubles; values that differ only
  in how their numbers are written become equal.
-/

namespace CondExpr.Json

mutual

/-- The value with every integer replaced by the double nearest to it. -/
def rounded : Json → Json
  | .integer n => .real (.ofInt n)
  | .array items => .array (roundedItems items)
  | .object members => .object (roundedMembers members)
  | v => v

/-- The items of an array, rounded. -/
def roundedItems : List Json → List Json
  | [] => []
  | item :: rest => item.rounded :: roundedItems rest

/-- The members of an object, rounded. -/
def roundedMembers : List (String × Json) → List (String × Json)
  | [] => []
  | (key, value) :: rest => (key, value.rounded) :: roundedMembers rest

end

mutual

/-- The numbers in the value as doubles, from left to right. -/
def numbers : Json → List Binary64
  | .integer n => [.ofInt n]
  | .real x => [x]
  | .array items => numbersOfItems items
  | .object members => numbersOfMembers members
  | _ => []

/-- The numbers in the items of an array. -/
def numbersOfItems : List Json → List Binary64
  | [] => []
  | item :: rest => item.numbers ++ numbersOfItems rest

/-- The numbers in the members of an object. -/
def numbersOfMembers : List (String × Json) → List Binary64
  | [] => []
  | (_, value) :: rest => value.numbers ++ numbersOfMembers rest

end

/-- A number is rounded to the double that it is. -/
theorem rounded_of_number? {v : Json} {x : Binary64} (h : v.number? = some x) :
    v.rounded = .real x := by
  cases v <;> cases h <;> rfl

theorem numbers_of_number? {v : Json} {x : Binary64} (h : v.number? = some x) :
    v.numbers = [x] := by
  cases v <;> cases h <;> rfl

end CondExpr.Json
