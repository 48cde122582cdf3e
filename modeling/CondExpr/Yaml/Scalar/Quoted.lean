import CondExpr.Text.Hex
import CondExpr.Yaml.Scalar.Folding

/-! # Quoted scalars

  Scalars in single or double quotes. Within single quotes, only a quote
  is special: it is written twice. Within double quotes a backslash begins
  an escape, or joins two lines.
-/

namespace CondExpr.Yaml

/-- The two kinds of quotes. -/
inductive Quote where
  | single
  | double
  deriving DecidableEq, Repr

namespace Quote

/-- The quote itself. -/
def char : Quote → Char
  | .single => '\''
  | .double => '"'

/-- The characters of one letter escapes. -/
def escapes : List (Char × Nat) :=
  [('0', 0x00), ('a', 0x07), ('b', 0x08), ('t', 0x09), ('\t', 0x09), ('n', 0x0A), ('v', 0x0B),
    ('f', 0x0C), ('r', 0x0D), ('e', 0x1B), (' ', 0x20), ('"', 0x22), ('/', 0x2F), ('\\', 0x5C),
    ('N', 0x85), ('_', 0xA0), ('L', 0x2028), ('P', 0x2029)]

/-- How many digits come after the letter of a numeric escape. -/
def escapeSize? : Char → Option Nat
  | 'x' => some 2
  | 'u' => some 4
  | 'U' => some 8
  | _ => none

/-- The character of a code point. -/
def charOfCode? (code : Nat) : Option Char :=
  if h : code.isValidChar then some (Char.ofNatAux code h) else none

/-- The character of an escape, after its backslash. -/
def escaped? (c : Cursor) : Option (Char × Cursor) := do
  let letter ← c.rest.head?
  match escapes.lookup letter with
  | some code => return (Char.ofNat code, c.skip 1)
  | none =>
    let size ← escapeSize? letter
    let digits := (c.skip 1).rest.take size
    if digits.length < size then none
    else return (← charOfCode? (← hexNumber? digits), c.skip (1 + size))

/-- The characters up to the next spacing or the closing quote, after those
    in `before`, which come last one first; and the gap that has begun
    there. The fuel is more than the number of characters left. -/
def wordWithin? (q : Quote) : Nat → List Char → Cursor → Option (List Char × Gap × Cursor)
  | 0, _, _ => none
  | fuel + 1, before, c =>
    match c.rest with
    | [] => some (before.reverse, .empty, c)
    | first :: rest =>
      if isSpacing first then some (before.reverse, .empty, c)
      else if first = q.char then
        if q = .single && rest.head? = some first then
          wordWithin? q fuel (first :: before) (c.skip 2)
        else some (before.reverse, .empty, c)
      else if q = .double && first = '\\' then
        -- In front of a break, a backslash joins the two lines.
        match (c.skip 1).takeBreak? with
        | some (_, c) => some (before.reverse, .joining, c)
        | none => do
          let (char, c) ← escaped? (c.skip 1)
          wordWithin? q fuel (char :: before) c
      else wordWithin? q fuel (first :: before) (c.skip 1)

/-- The rest of a quoted scalar, after the words and gaps in `before`, which
    come last one first. No line of it may separate documents. The fuel is
    more than the number of characters left. -/
def readWithin? (q : Quote) : Nat → List (List Char) → Cursor → Option (String × Cursor)
  | 0, _, _ => none
  | fuel + 1, before, c =>
    if c.atDocumentMark || c.atEnd then none
    else do
      let (word, gap, c) ← wordWithin? q (c.rest.length + 1) [] c
      if c.atChar q.char then
        return (String.ofList (word :: before).reverse.flatten, c.skip 1)
      else
        let (gap, c) ← gap.extend? 0 c
        readWithin? q fuel (gap.folded :: word :: before) c

/-- A quoted scalar, at its opening quote. -/
def read? (q : Quote) (c : Cursor) : Option (String × Cursor) :=
  readWithin? q (c.rest.length + 1) [] (c.skip 1)

end Quote
end CondExpr.Yaml
