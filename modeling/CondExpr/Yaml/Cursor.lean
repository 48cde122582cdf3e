import CondExpr.Yaml.Character

/-! # Cursors in YAML text

  A place in a text, with what follows it. Lines and columns are counted
  since they carry meaning: the column of an entry is its indentation.
-/

namespace CondExpr.Yaml

/-- What remains of a text, and where that begins. -/
structure Cursor where
  rest : List Char
  /-- How many bytes of UTF-8 are before it. -/
  offset : Nat
  /-- How many lines are before it. -/
  line : Nat
  /-- How many characters of its line are before it. -/
  column : Nat
  deriving DecidableEq, Repr

namespace Cursor

/-! ## Section 1: Looking -/

/-- The cursor at the start of a text. -/
def start (text : String) : Cursor := ⟨text.toList, 0, 0, 0⟩

/-- The text is at its end. -/
def atEnd (c : Cursor) : Bool := c.rest.isEmpty

/-- The next character is of a class. -/
def atClass (c : Cursor) (isMember : Char → Bool) : Bool := c.rest.head?.any isMember

/-- The next character is the given one. -/
def atChar (c : Cursor) (char : Char) : Bool := c.rest.head? = some char

/-- Spacing or the end of the text comes next. -/
def atSpacing (c : Cursor) : Bool := spacingFirst c.rest

/-- The character after the next one is spacing, or there is none. -/
def spacingAfter (c : Cursor) : Bool := spacingFirst c.rest.tail

/-- A line of its own starts with three times the given character. -/
def atRuler (c : Cursor) (char : Char) : Bool :=
  c.column = 0 && c.rest.take 3 = [char, char, char] && spacingFirst (c.rest.drop 3)

/-- A line starts with one of the marks that separate documents. -/
def atDocumentMark (c : Cursor) : Bool := c.atRuler '-' || c.atRuler '.'

/-! ## Section 2: Moving -/

/-- Moves over characters that are no breaks. -/
def skip (c : Cursor) (count : Nat) : Cursor :=
  ⟨c.rest.drop count, c.offset + byteCount (c.rest.take count), c.line, c.column + count⟩

/-- Splits off the leading characters of a class without breaks. -/
def takeWhile (c : Cursor) (isMember : Char → Bool) : List Char × Cursor :=
  let run := c.rest.takeWhile isMember
  (run, c.skip run.length)

/-- Moves over the leading characters of a class without breaks. -/
def skipWhile (c : Cursor) (isMember : Char → Bool) : Cursor := (c.takeWhile isMember).2

/-- Moves over a line break and tells how it is read. -/
def takeBreak? (c : Cursor) : Option (Char × Cursor) :=
  (breakFirst? c.rest).map fun (char, count) =>
    (char, ⟨c.rest.drop count, c.offset + byteCount (c.rest.take count), c.line + 1, 0⟩)

/-- Moves over a byte order mark at the start of a line, if there is one. It
    takes a column. -/
def skipMark (c : Cursor) : Cursor :=
  if c.column = 0 && c.atChar byteOrderMark then c.skip 1 else c

/-- Moves over a comment, if there is one. -/
def skipComment (c : Cursor) : Cursor := if c.atChar '#' then c.skipWhile (!isBreak ·) else c

/-- Moves to the next line. Only blanks and a comment may be left in this
    one. -/
def endLine? (c : Cursor) : Option Cursor :=
  let c := (c.skipWhile isSpaceOrTab).skipComment
  match c.takeBreak? with
  | some (_, c) => some c
  | none => if c.atEnd then some c else none

end Cursor
end CondExpr.Yaml
