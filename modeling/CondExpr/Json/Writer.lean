import CondExpr.Json.Basic
import CondExpr.Number.Notation

/-! # Compact JSON text

  Writes JSON values without blanks. In strings only quotes, backslashes
  and control characters are escaped.
-/

namespace CondExpr.Json

/-- A hexadecimal digit. -/
def hexDigit (n : Nat) : Char := Nat.digitChar n

/-- A character inside a string. -/
def escape (c : Char) : List Char :=
  if c = '"' then ['\\', '"']
  else if c = '\\' then ['\\', '\\']
  else if c.toNat = 0x08 then ['\\', 'b']
  else if c.toNat = 0x0C then ['\\', 'f']
  else if c = '\n' then ['\\', 'n']
  else if c = '\r' then ['\\', 'r']
  else if c = '\t' then ['\\', 't']
  else if c.toNat < 0x20 then
    ['\\', 'u', '0', '0', hexDigit (c.toNat / 16), hexDigit (c.toNat % 16)]
  else [c]

/-- A string with its quotes, in front of the text that follows it. -/
def quotedBefore (s : String) (rest : List Char) : List Char :=
  '"' :: s.toList.flatMap escape ++ '"' :: rest

mutual

/-- The compact text of a value, in front of the text that follows it. -/
def compactBefore : Json → List Char → List Char
  | .null, rest => "null".toList ++ rest
  | .boolean b, rest => (if b then "true" else "false").toList ++ rest
  | .integer n, rest => (toString n).toList ++ rest
  | .real x, rest => x.dataText.toList ++ rest
  | .text s, rest => quotedBefore s rest
  | .array [], rest => '[' :: ']' :: rest
  | .array (item :: items), rest => '[' :: item.compactBefore (itemsBefore items rest)
  | .object [], rest => '\x7b' :: '\x7d' :: rest
  | .object ((key, value) :: members), rest =>
    '\x7b' :: quotedBefore key (':' :: value.compactBefore (membersBefore members rest))

/-- The items after the first and the end of the array, in front of the text
    that follows it. -/
def itemsBefore : List Json → List Char → List Char
  | [], rest => ']' :: rest
  | item :: items, rest => ',' :: item.compactBefore (itemsBefore items rest)

/-- The members after the first and the end of the object, in front of the
    text that follows it. -/
def membersBefore : List (String × Json) → List Char → List Char
  | [], rest => '\x7d' :: rest
  | (key, value) :: members, rest =>
    ',' :: quotedBefore key (':' :: value.compactBefore (membersBefore members rest))

end

/-- The compact text of a value. -/
def compact (v : Json) : String := .ofList (v.compactBefore [])

end CondExpr.Json
