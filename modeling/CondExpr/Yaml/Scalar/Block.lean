import CondExpr.Yaml.Cursor

/-! # Block scalars

  Scalars that are indented lines below a header. In *literal* ones line
  breaks are kept. In *folded* ones a line feed between two lines becomes a
  space, unless one of the lines starts with a blank. The header may give
  the indentation, and says what becomes of the breaks at the end.
-/

namespace CondExpr.Yaml

/-! ## Section 1: Headers -/

/-- What becomes of the line breaks at the end of a block scalar. -/
inductive Chomping where
  /-- All are dropped. -/
  | strip
  /-- The first is kept. -/
  | clip
  /-- All are kept. -/
  | keep
  deriving DecidableEq, Repr

/-- The header of a block scalar. -/
structure BlockHeader where
  chomping : Chomping
  /-- By how much the lines are indented further than their surroundings. -/
  increment : Option Nat
  deriving DecidableEq, Repr

/-- The chomping that a character stands for. -/
def Chomping.ofChar? : Char → Option Chomping
  | '-' => some .strip
  | '+' => some .keep
  | _ => none

namespace BlockHeader

/-- Reads a chomping indicator, if there is one. -/
def readChomping (c : Cursor) : Option Chomping × Cursor :=
  match c.rest.head?.bind Chomping.ofChar? with
  | some chomping => (some chomping, c.skip 1)
  | none => (none, c)

/-- Reads an indentation indicator, if there is one. It cannot be zero. -/
def readIncrement? (c : Cursor) : Option (Option Nat × Cursor) :=
  match c.rest.head? with
  | some char =>
    if !char.isDigit then some (none, c)
    else if char = '0' then none
    else some (some (char.toNat - 48), c.skip 1)
  | none => some (none, c)

/-- Reads a header, after the character that marks the style, and moves to
    the line after it. The indicators come in either order. -/
def read? (c : Cursor) : Option (BlockHeader × Cursor) := do
  let (early, c) := readChomping c
  let (increment, c) ← readIncrement? c
  let (late, c) := if early.isNone && increment.isSome then readChomping c else (none, c)
  return (⟨(early.or late).getD .clip, increment⟩, ← c.endLine?)

end BlockHeader

/-! ## Section 2: Contents -/

namespace BlockScalar

/-- Moves over empty lines, and over the indentation of the next line that
    is not empty; without a known `indentation`, over all its spaces. Gives
    the breaks after those in `breaks`, and the greatest column met. Where
    indentation is expected there cannot be a tab. The fuel is more than the
    number of characters left. -/
def skipEmptyLines? (indentation : Option Nat) :
    Nat → List Char → Nat → Cursor → Option (List Char × Nat × Cursor)
  | 0, _, _, _ => none
  | fuel + 1, breaks, greatest, c =>
    let spaces := (c.takeWhile (· = ' ')).1.length
    let c := c.skip (indentation.elim spaces fun n => min spaces (n - c.column))
    let greatest := max greatest c.column
    if c.atChar '\t' && indentation.all (c.column < ·) then none
    else
      match c.takeBreak? with
      | some (lineBreak, c) => skipEmptyLines? indentation fuel (breaks ++ [lineBreak]) greatest c
      | none => some (breaks, greatest, c)

/-- What stands between a line and the next one: the break after the line
    and those of empty lines, of which a folded scalar drops or replaces the
    first. -/
def joint (folds : Bool) (lineBreak emptyLines : List Char) : List Char :=
  if folds && lineBreak = ['\n'] then
    if emptyLines.isEmpty then [' '] else emptyLines
  else lineBreak ++ emptyLines

/-- The lines that are indented by `indentation`, after the text in
    `before`, which comes last piece first. The last line began with a blank
    or not, and was followed by `lineBreak` and then by `emptyLines`. The
    fuel is more than the number of characters left. -/
def readLines? (folded : Bool) (chomping : Chomping) (indentation : Nat) :
    Nat → List (List Char) → Bool → List Char → List Char → Cursor → Option (String × Cursor)
  | 0, _, _, _, _, _ => none
  | fuel + 1, before, blankBefore, lineBreak, emptyLines, c =>
    -- A line that is indented less belongs to what comes after the scalar.
    if c.column ≠ indentation || c.atEnd then
      let kept := match chomping with
        | .strip => []
        | .clip => lineBreak
        | .keep => lineBreak ++ emptyLines
      some (String.ofList (kept :: before).reverse.flatten, c)
    else do
      let blank := c.atClass isSpaceOrTab
      let joint := joint (folded && !blankBefore && !blank) lineBreak emptyLines
      let (line, c) := c.takeWhile (!isBreak ·)
      let (lineBreak, c) := match c.takeBreak? with
        | some (lineBreak, c) => ([lineBreak], c)
        | none => ([], c)
      let (emptyLines, _, c) ← skipEmptyLines? (some indentation) (c.rest.length + 1) [] 0 c
      readLines? folded chomping indentation fuel (line :: joint :: before) blank lineBreak
        emptyLines c

/-- A block scalar, at the character that marks its style. Its surroundings
    are indented by `outer`, or by nothing at all if that is negative. An
    indentation that is not given is that of the first line, but more than
    the surroundings have. -/
def read? (folded : Bool) (outer : Int) (c : Cursor) : Option (String × Cursor) := do
  let (header, c) ← BlockHeader.read? (c.skip 1)
  let given := header.increment.map (outer.toNat + ·)
  let (emptyLines, greatest, c) ← skipEmptyLines? given (c.rest.length + 1) [] 0 c
  let indentation := given.getD (max (max greatest (outer + 1).toNat) 1)
  readLines? folded header.chomping indentation (c.rest.length + 1) [] false [] emptyLines c

end BlockScalar
end CondExpr.Yaml
