import CondExpr.Text.Unprintable

/-! # Texts in messages

  A text inside a message is quoted, and what would not be seen or would
  end the quotation is escaped.
-/

namespace CondExpr

/-- A character of a shown text. -/
def shownChar (c : Char) : List Char :=
  if c.toNat = 0 then ['\\', '0']
  else if c = '\t' then ['\\', 't']
  else if c = '\r' then ['\\', 'r']
  else if c = '\n' then ['\\', 'n']
  else if c = '"' then ['\\', '"']
  else if c = '\\' then ['\\', '\\']
  else if isUnprintable c then
    ['\\', 'u', '\x7b'] ++ Nat.toDigits 16 c.toNat ++ ['\x7d']
  else [c]

/-- A text as it is shown in a message. -/
def shownText (s : String) : String := .ofList ('"' :: s.toList.flatMap shownChar ++ ['"'])

end CondExpr
