import CondExpr.Text.Hex
import CondExpr.Yaml.Cursor
import CondExpr.Yaml.Token

/-! # Reading tags and directives

  A tag is written in full, between angle brackets, or as a handle and a
  suffix. Handles are `!`, `!!` and those of the form `!word!`; directives at
  the start of a document say what they stand for.
-/

namespace CondExpr.Yaml

/-! ## Section 1: Characters of tags -/

/-- The punctuation of tags. -/
def tagPunctuation : List Char :=
  [';', '/', '?', ':', '@', '&', '=', '+', '$', '.', '%', '!', '~', '*', '\'', '(', ')']

/-- The characters of tags. Commas and square brackets are allowed only
    where no flow collection can be meant. -/
def isTagChar (brackets : Bool) (c : Char) : Bool :=
  isWordChar c || tagPunctuation.contains c || brackets && [',', '[', ']'].contains c

/-- The byte of a percent escape, at its percent sign. -/
def escapedByte? : List Char → Option Nat
  | '%' :: high :: low :: _ => hexNumber? [high, low]
  | _ => none

/-- How many more bytes a character takes whose first byte is given. -/
def bytesAfter? (lead : Nat) : Option Nat :=
  if lead < 0x80 then some 0
  else if lead / 0x20 = 0x06 then some 1
  else if lead / 0x10 = 0x0E then some 2
  else if lead / 0x08 = 0x1E then some 3
  else none

/-- The bytes of tag characters, with escapes replaced, where a number of
    bytes must still come to end a character. These have to be escapes.
    Escapes need not give characters otherwise: only the form of their bytes
    counts. The fuel is the number of tag characters. -/
def tagBytes? : Nat → Nat → List Char → Option (List UInt8)
  | _, due, [] => if due = 0 then some [] else none
  | 0, _, _ => none
  | fuel + 1, due, c :: rest =>
    if c = '%' then do
      let byte ← escapedByte? (c :: rest)
      let due ←
        if due = 0 then bytesAfter? byte
        else if byte / 0x40 = 0x02 then some (due - 1)
        else none
      return .ofNat byte :: (← tagBytes? fuel due (rest.drop 2))
    else if due = 0 then do return String.utf8EncodeChar c ++ (← tagBytes? fuel 0 rest)
    else none

/-- The leading tag characters, as a part of a tag. -/
def readTagChars? (brackets : Bool) (c : Cursor) : Option (Tag × Cursor) := do
  let (run, c) := c.takeWhile (isTagChar brackets)
  return (.ofBytes (← tagBytes? run.length 0 run), c)

/-- A part of a tag that takes one character at least. -/
def readTagPart? (brackets : Bool) (c : Cursor) : Option (Tag × Cursor) :=
  if c.atClass (isTagChar brackets) then readTagChars? brackets c else none

/-! ## Section 2: Tags -/

/-- The part of a tag that may be its handle: an exclamation mark, word
    characters, and another exclamation mark if there is one. -/
def takeHandle (c : Cursor) : List Char × Cursor :=
  let (word, c) := (c.skip 1).takeWhile isWordChar
  if c.atChar '!' then ('!' :: word ++ ['!'], c.skip 1) else ('!' :: word, c)

/-- A tag written in full, at its exclamation mark. -/
def readFullTag? (c : Cursor) : Option (TagText × Cursor) := do
  let (tag, c) ← readTagPart? true (c.skip 2)
  if c.atChar '>' then return (⟨"", tag⟩, c.skip 1) else none

/-- A tag with a handle, at its exclamation mark. The lone exclamation mark
    is a tag written in full. -/
def readShortTag? (c : Cursor) : Option (TagText × Cursor) := do
  let (start, c) := takeHandle c
  if 1 < start.length ∧ start.getLast? = some '!' then
    let (suffix, c) ← readTagPart? false c
    return (⟨String.ofList start, suffix⟩, c)
  else
    let (rest, c) ← readTagChars? false c
    let suffix := Tag.ofText (String.ofList start.tail) ++ rest
    return (if suffix.isEmpty then ⟨"", .ofText "!"⟩ else ⟨"!", suffix⟩, c)

/-- A tag, at its exclamation mark. Spacing must come after it, or in flow
    collections a comma. -/
def readTag? (inFlow : Bool) (c : Cursor) : Option (TagText × Cursor) := do
  let (tag, c) ← if (c.skip 1).atChar '<' then readFullTag? c else readShortTag? c
  if c.atSpacing || inFlow && c.atChar ',' then return (tag, c) else none

/-! ## Section 3: Directives -/

/-- A part of a version: up to nine digits. -/
def readVersionPart? (c : Cursor) : Option (Nat × Cursor) :=
  let (digits, c) := c.takeWhile Char.isDigit
  if digits.isEmpty || 9 < digits.length then none
  else some (Nat.ofDigitChars 10 digits 0, c)

/-- The version of a version directive. -/
def readVersion? (c : Cursor) : Option (Token × Cursor) := do
  let (major, c) ← readVersionPart? c
  if !c.atChar '.' then none
  else
    let (minor, c) ← readVersionPart? (c.skip 1)
    return (.version major minor, c)

/-- The handle of a tag directive, and what it stands for. -/
def readHandleExpansion? (c : Cursor) : Option (Token × Cursor) := do
  if !c.atChar '!' then none
  else
    let (handle, c) := takeHandle c
    if handle.getLast? ≠ some '!' || !c.atClass isSpaceOrTab then none
    else
      let (expansion, c) ← readTagPart? true (c.skipWhile isSpaceOrTab)
      if c.atSpacing then return (.tagHandle (String.ofList handle) expansion, c) else none

/-- A directive, at its percent sign. It takes a line of its own. -/
def readDirective? (c : Cursor) : Option (Token × Cursor) := do
  let (name, c) := (c.skip 1).takeWhile isWordChar
  if !c.atSpacing then none
  else
    let c := c.skipWhile isSpaceOrTab
    let (directive, c) ←
      if name = ['Y', 'A', 'M', 'L'] then readVersion? c
      else if name = ['T', 'A', 'G'] then readHandleExpansion? c
      else none
    return (directive, ← c.endLine?)

end CondExpr.Yaml
