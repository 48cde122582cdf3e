import CondExpr.Yaml.Scalar.Folding

/-! # Plain scalars

  Scalars without quotes. They go on up to a colon with spacing after it, a
  comment, a line that is not indented enough or that separates documents,
  and inside flow collections also up to the next flow indicator.
-/

namespace CondExpr.Yaml

/-- A plain scalar that has been read. -/
structure PlainScalar where
  text : String
  /-- Line breaks come after it. -/
  endsLine : Bool
  deriving DecidableEq, Repr

namespace PlainScalar

/-- The characters that a plain scalar cannot start with, unless they are
    excepted below. -/
def isIndicator (c : Char) : Bool :=
  ['-', '?', ':', ',', '[', ']', '\x7b', '\x7d', '#', '&', '*', '!', '|', '>', '\'', '"',
    '%', '@', '\x60'].contains c

/-- A plain scalar may start here. A hyphen can begin one if no blank comes
    after it, a question mark or a colon if no spacing does, and these two
    only outside flow collections. -/
def startsAt (inFlow : Bool) (c : Cursor) : Bool :=
  match c.rest with
  | [] => false
  | first :: rest =>
    !(isSpacing first || isIndicator first) ||
    first = '-' && !rest.head?.any isSpaceOrTab ||
    !inFlow && (first = '?' || first = ':') && !spacingFirst rest

/-- The characters up to the next spacing or the end of the scalar. A colon
    in a flow collection cannot stand directly before a flow indicator or a
    question mark. -/
def word? (inFlow : Bool) : List Char → Option (List Char)
  | [] => some []
  | c :: rest =>
    if isSpacing c then some []
    else if inFlow && c = ':' && rest.head?.any (fun c => isFlowIndicator c || c = '?') then none
    else if c = ':' && spacingFirst rest || inFlow && isFlowIndicator c then some []
    else (word? inFlow rest).map (c :: ·)

/-- The rest of a plain scalar, after the words in `before`, which come last
    word first, and a gap. The fuel is more than the number of characters
    left. -/
def readWithin? (inFlow : Bool) (limit : Nat) :
    Nat → List (List Char) → Gap → Cursor → Option (PlainScalar × Cursor)
  | 0, _, _, _ => none
  | fuel + 1, before, gap, c => do
    let finished (words : List (List Char)) (gap : Gap) : PlainScalar :=
      ⟨String.ofList words.reverse.flatten, gap.broken⟩
    if c.atDocumentMark || c.atChar '#' then return (finished before gap, c)
    else
      -- The gap counts only if another word comes after it.
      let word ← word? inFlow c.rest
      if word.isEmpty then return (finished before gap, c)
      else
        let words := word :: gap.folded :: before
        let (gap, c) ← Gap.empty.extend? limit (c.skip word.length)
        if gap = .empty || !inFlow && c.column < limit then return (finished words gap, c)
        else readWithin? inFlow limit fuel words gap c

/-- A plain scalar. Outside flow collections its lines have to be indented
    by `limit` or more. -/
def read? (inFlow : Bool) (limit : Nat) (c : Cursor) : Option (PlainScalar × Cursor) :=
  readWithin? inFlow limit (c.rest.length + 1) [] .empty c

end PlainScalar
end CondExpr.Yaml
