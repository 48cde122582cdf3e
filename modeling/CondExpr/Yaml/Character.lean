/-! # Characters of YAML text

  The classes of characters that YAML tells apart. Line breaks are line
  feeds and carriage returns, a carriage return with the line feed after it
  being one break, and three others: next line, line separator and
  paragraph separator.
-/

namespace CondExpr.Yaml

/-! ## Section 1: Classes -/

/-- The characters that may stand in a text at all: everything printable,
    tabs, and line breaks. -/
def isAllowed (c : Char) : Bool :=
  let code := c.toNat
  code = 0x09 || code = 0x0A || code = 0x0D || (0x20 ≤ code && code ≤ 0x7E) || code = 0x85 ||
    (0xA0 ≤ code && code ≤ 0xFFFD) || 0x10000 ≤ code

/-- The mark that a line may begin with. -/
def byteOrderMark : Char := Char.ofNat 0xFEFF

/-- A space or a tab. -/
def isSpaceOrTab (c : Char) : Bool := c = ' ' || c = '\t'

/-- A line break. -/
def isBreak (c : Char) : Bool :=
  [0x0A, 0x0D, 0x85, 0x2028, 0x2029].contains c.toNat

/-- A space, a tab or a line break. -/
def isSpacing (c : Char) : Bool := isSpaceOrTab c || isBreak c

/-- The characters of anchors, tag handles and directive names. -/
def isWordChar (c : Char) : Bool := c.isAlphanum || c = '_' || c = '-'

/-- The characters that delimit flow collections and their entries. -/
def isFlowIndicator (c : Char) : Bool := [',', '[', ']', '\x7b', '\x7d'].contains c

/-! ## Section 2: Starts of texts -/

/-- No more characters of a word: spacing, or the end of the text. -/
def spacingFirst (cs : List Char) : Bool := cs.head?.all isSpacing

/-- The break that a text starts with, as the character it is read as, and
    how many characters it takes. All breaks are read as line feeds, except
    for the two separators. -/
def breakFirst? : List Char → Option (Char × Nat)
  | '\r' :: '\n' :: _ => some ('\n', 2)
  | c :: _ =>
    if !isBreak c then none
    else if c.toNat = 0x2028 || c.toNat = 0x2029 then some (c, 1)
    else some ('\n', 1)
  | [] => none

/-! ## Section 3: Sizes -/

/-- How many bytes characters take in UTF-8. -/
def byteCount (cs : List Char) : Nat := cs.foldl (fun n c => n + c.utf8Size) 0

end CondExpr.Yaml
