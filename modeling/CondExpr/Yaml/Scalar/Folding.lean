import CondExpr.Yaml.Cursor

/-! # Line folding

  Scalars that are not blocks may go over several lines. What lies between
  two words of such a scalar, blanks and line breaks, is a *gap*, and is
  folded: blanks around line breaks do not count, a single line feed
  becomes a space, and of several line feeds the first is dropped.
-/

namespace CondExpr.Yaml

/-- What lies between two words of a scalar. -/
structure Gap where
  /-- The blanks, in a gap without a line break. -/
  blanks : List Char
  /-- The gap has a line break. -/
  broken : Bool
  /-- The first break, unless it does not count. -/
  first : List Char
  /-- The other breaks. -/
  others : List Char
  deriving DecidableEq, Repr

namespace Gap

/-- The gap of no characters. -/
def empty : Gap := ⟨[], false, [], []⟩

/-- A gap behind a line break that does not count. -/
def joining : Gap := ⟨[], true, [], []⟩

/-- One more blank. Blanks after a break do not count. -/
def addBlank (g : Gap) (blank : Char) : Gap :=
  if g.broken then g else { g with blanks := g.blanks ++ [blank] }

/-- One more line break. -/
def addBreak (g : Gap) (lineBreak : Char) : Gap :=
  if g.broken then { g with others := g.others ++ [lineBreak] }
  else ⟨[], true, [lineBreak], []⟩

/-- The text that a gap stands for. -/
def folded (g : Gap) : List Char :=
  if !g.broken then g.blanks
  else if g.first ≠ ['\n'] then g.first ++ g.others
  else if g.others.isEmpty then [' ']
  else g.others

/-- Extends a gap by the blanks and breaks that come next. After a break, no
    tab may stand in a column below `limit`. The fuel is at least the number
    of characters left. -/
def extendWithin? (limit : Nat) : Nat → Gap → Cursor → Option (Gap × Cursor)
  | 0, g, c => some (g, c)
  | fuel + 1, g, c =>
    match c.rest.head?, c.takeBreak? with
    | _, some (lineBreak, c) => extendWithin? limit fuel (g.addBreak lineBreak) c
    | some char, none =>
      if !isSpaceOrTab char then some (g, c)
      else if g.broken && c.column < limit && char = '\t' then none
      else extendWithin? limit fuel (g.addBlank char) (c.skip 1)
    | none, none => some (g, c)

/-- Extends a gap by the blanks and breaks that come next. -/
def extend? (limit : Nat) (g : Gap) (c : Cursor) : Option (Gap × Cursor) :=
  extendWithin? limit c.rest.length g c

end Gap
end CondExpr.Yaml
