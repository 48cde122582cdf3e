import CondExpr.Yaml.Scalar.Block
import CondExpr.Yaml.Scalar.Plain
import CondExpr.Yaml.Scalar.Quoted
import CondExpr.Yaml.Tag.Reader

/-! # Splitting a text into tokens

  Reads the tokens of a text, from left to right, and works out its block
  structure on the way.

  - A block collection begins where an entry is indented further than what
    encloses it, and ends where a token is indented less.
  - A key without a mark is seen to be one only at the colon behind it. Up
    to there its start is kept as a *possible key*; its token is put in
    front of what has been read since. Such a key has to be on one line, and
    its colon within 1024 bytes.
-/

namespace CondExpr.Yaml

/-! ## Section 1: State -/

/-- The start of what may turn out to be a key. -/
structure PossibleKey where
  /-- How many tokens come before it. -/
  position : Nat
  /-- Where it starts. -/
  start : Cursor
  /-- Since it is indented like the keys of a block mapping, it must be one. -/
  required : Bool
  deriving DecidableEq, Repr

/-- What is known between two tokens. -/
structure Layout where
  cursor : Cursor
  /-- The tokens read so far, last token first. -/
  tokens : List Token
  /-- How many tokens have been read. -/
  count : Nat
  /-- The indentation of the innermost block collection, -1 outside of all. -/
  indent : Int
  /-- The indentations of what encloses it, innermost first. -/
  outerIndents : List Int
  /-- The possible key of the innermost flow collection, or of the block. -/
  possibleKey : Option PossibleKey
  /-- The possible keys of what encloses the flow collection. -/
  outerKeys : List (Option PossibleKey)
  /-- A key without a mark may start here. -/
  keyAllowed : Bool
  deriving Repr

namespace Layout

/-- The state at the start of a text. -/
def start (text : String) : Layout := ⟨.start text, [], 0, -1, [], none, [], true⟩

/-- The cursor is inside a flow collection. -/
def inFlow (l : Layout) : Bool := !l.outerKeys.isEmpty

/-- One more token, and where it ends. -/
def emit (l : Layout) (token : Token) (c : Cursor) : Layout :=
  { l with cursor := c, tokens := token :: l.tokens, count := l.count + 1 }

/-- A token of the next few characters. -/
def emitMark (l : Layout) (token : Token) (size : Nat) : Layout :=
  l.emit token (l.cursor.skip size)

/-! ## Section 2: Between tokens -/

/-- Moves over blanks, comments and line breaks, and over a byte order mark
    at the start of each line. Tabs do not count as blanks where a key may
    start. The fuel is more than the number of characters left. -/
def skipBlanksWithin : Nat → Layout → Layout
  | 0, l => l
  | fuel + 1, l =>
    let tabs := l.inFlow || !l.keyAllowed
    let c := l.cursor.skipMark.skipWhile fun c => c = ' ' || tabs && c = '\t'
    let c := c.skipComment
    match c.takeBreak? with
    | some (_, c) =>
      skipBlanksWithin fuel { l with cursor := c, keyAllowed := l.keyAllowed || !l.inFlow }
    | none => { l with cursor := c }

/-- Moves to the next token. -/
def skipBlanks (l : Layout) : Layout := skipBlanksWithin (l.cursor.rest.length + 1) l

/-- How far the colon may be from the start of its key, in bytes. -/
abbrev keyReach : Nat := 1024

/-- The colon of a possible key may still come at the cursor. -/
def PossibleKey.isOpen (key : PossibleKey) (c : Cursor) : Bool :=
  key.start.line = c.line && c.offset ≤ key.start.offset + keyReach

/-- Gives up a possible key, which must not be a required one. -/
def giveUp? : Option PossibleKey → Option (Option PossibleKey)
  | some key => if key.required then none else some none
  | none => some none

/-- Gives up a possible key whose colon can no longer come. -/
def giveUpStale? (c : Cursor) (key : Option PossibleKey) : Option (Option PossibleKey) :=
  if key.all (PossibleKey.isOpen · c) then some key else giveUp? key

/-- Gives up all possible keys whose colon can no longer come. -/
def dropStaleKeys? (l : Layout) : Option Layout := do
  return { l with
    possibleKey := ← giveUpStale? l.cursor l.possibleKey
    outerKeys := ← l.outerKeys.mapM (giveUpStale? l.cursor) }

/-- Gives up the innermost possible key. -/
def dropKey? (l : Layout) : Option Layout := do
  return { l with possibleKey := ← giveUp? l.possibleKey }

/-- A key may start here, if keys are allowed. -/
def noteKey? (l : Layout) : Option Layout := do
  if !l.keyAllowed then return l
  else
    let l ← l.dropKey?
    -- In a block mapping whatever is indented like its keys has to be one.
    let required := !l.inFlow && l.indent = l.cursor.column
    return { l with possibleKey := some ⟨l.count, l.cursor, required⟩ }

/-! ## Section 3: Block structure -/

/-- Ends the block collections, whose indentations are given, that are
    indented further than a column. -/
def closeBlocksAbove (column : Int) : List Int → Layout → Layout
  | [], l => l
  | outer :: rest, l =>
    if column < l.indent then
      closeBlocksAbove column rest
        { l.emit .blockEnd l.cursor with indent := outer, outerIndents := rest }
    else l

/-- Ends the block collections that are indented further than a column. In
    flow collections indentation does not count. -/
def closeBlocks (column : Int) (l : Layout) : Layout :=
  if l.inFlow then l else closeBlocksAbove column l.outerIndents l

/-- Begins a block collection if there is none with this indentation. The
    tokens read after its start are given, last token first, and how many
    come before it. -/
def openBlock (l : Layout) (begin : Token) (column : Nat) (after : List Token)
    (before : List Token) : Layout :=
  if !l.inFlow && l.indent < column then
    { l with
      tokens := after ++ begin :: before
      count := l.count + 1
      indent := column
      outerIndents := l.indent :: l.outerIndents }
  else { l with tokens := after ++ before }

/-- An entry of a block collection with a mark of its own: an item, or a key
    or value without a possible key. In blocks it can stand only where a key
    could start. -/
def markedEntry? (l : Layout) (begin entry : Token) : Option Layout := do
  if !l.inFlow && !l.keyAllowed then none
  else
    let l := l.openBlock begin l.cursor.column [] l.tokens
    return { (← l.dropKey?).emitMark entry 1 with keyAllowed := entry = .item || !l.inFlow }

/-- A colon. If there is a possible key, it is one. -/
def readColon? (l : Layout) : Option Layout :=
  match l.possibleKey with
  | some key =>
    -- Its token belongs in front of what has been read since it started.
    let (after, before) := l.tokens.splitAt (l.count - key.position)
    let l := { l with count := l.count + 1, possibleKey := none, keyAllowed := false }
    let l := l.openBlock .mappingStart key.start.column (after ++ [.key]) before
    some (l.emitMark .value 1)
  | none => l.markedEntry? .mappingStart .value

/-! ## Section 4: Tokens -/

/-- A bracket that begins a flow collection. -/
def openFlow? (l : Layout) (token : Token) : Option Layout := do
  let l ← l.noteKey?
  return { l.emitMark token 1 with
    possibleKey := none, outerKeys := l.possibleKey :: l.outerKeys, keyAllowed := true }

/-- A bracket that ends a flow collection. -/
def closeFlow? (l : Layout) (token : Token) : Option Layout := do
  let l ← l.dropKey?
  let l := match l.outerKeys with
    | key :: rest => { l with possibleKey := key, outerKeys := rest }
    | [] => l
  return { l.emitMark token 1 with keyAllowed := false }

/-- A comma. -/
def readComma? (l : Layout) : Option Layout := do
  return { (← l.dropKey?).emitMark .comma 1 with keyAllowed := true }

/-- A line that belongs to no document: a directive, or a mark between
    documents. -/
def readSeparator? (l : Layout) (read? : Cursor → Option (Token × Cursor)) : Option Layout := do
  let l ← (l.closeBlocks (-1)).dropKey?
  let (token, c) ← read? l.cursor
  return { l.emit token c with keyAllowed := false }

/-- A token that a key may start with. -/
def readContent? (l : Layout) (read? : Cursor → Option (Token × Cursor)) : Option Layout := do
  let l ← l.noteKey?
  let (token, c) ← read? l.cursor
  return { l.emit token c with keyAllowed := false }

/-- The name of an anchor, with its mark. Spacing or one of a few indicators
    must come after it. -/
def readName? (token : String → Token) (c : Cursor) : Option (Token × Cursor) :=
  let (name, c) := (c.skip 1).takeWhile isWordChar
  let ended := c.atSpacing ||
    c.atClass ['?', ':', ',', ']', '\x7d', '%', '@', '\x60'].contains
  if name.isEmpty || !ended then none else some (token (String.ofList name), c)

/-- A scalar in quotes. -/
def readQuoted? (l : Layout) (quote : Quote) (style : Style) : Option Layout :=
  l.readContent? fun c => do
    let (text, c) ← quote.read? c
    return (.scalar style text, c)

/-- A block scalar. A key may start after it. -/
def readBlockScalar? (l : Layout) (style : Style) : Option Layout := do
  let l ← l.dropKey?
  let (text, c) ← BlockScalar.read? (style = .folded) l.indent l.cursor
  return { l.emit (.scalar style text) c with keyAllowed := true }

/-- A plain scalar. A key may start after it if it ends its line. -/
def readPlain? (l : Layout) : Option Layout := do
  let l ← l.noteKey?
  let (scalar, c) ← PlainScalar.read? l.inFlow (l.indent + 1).toNat l.cursor
  return { l.emit (.scalar .plain scalar.text) c with keyAllowed := scalar.endsLine }

/-- A question mark or colon is a token of its own here: in flow collections
    anywhere, else with spacing after it. -/
def standsAlone (l : Layout) : Bool := l.inFlow || l.cursor.spacingAfter

/-- Reads the token at the cursor. -/
def readToken? (l : Layout) : Option Layout :=
  let c := l.cursor
  -- Lines between documents.
  if c.column = 0 && c.atChar '%' then l.readSeparator? readDirective?
  else if c.atRuler '-' then l.readSeparator? fun c => some (.documentStart, c.skip 3)
  else if c.atRuler '.' then l.readSeparator? fun c => some (.documentEnd, c.skip 3)
  -- Flow collections.
  else if c.atChar '[' then l.openFlow? .flowSequenceStart
  else if c.atChar '\x7b' then l.openFlow? .flowMappingStart
  else if c.atChar ']' then l.closeFlow? .flowSequenceEnd
  else if c.atChar '\x7d' then l.closeFlow? .flowMappingEnd
  else if c.atChar ',' then l.readComma?
  -- Marks of entries.
  else if c.atChar '-' && c.spacingAfter then l.markedEntry? .sequenceStart .item
  else if c.atChar '?' && l.standsAlone then l.markedEntry? .mappingStart .key
  else if c.atChar ':' && l.standsAlone then l.readColon?
  -- What stands for a node, or in front of it.
  else if c.atChar '*' then l.readContent? (readName? .alias)
  else if c.atChar '&' then l.readContent? (readName? .anchor)
  else if c.atChar '!' then l.readContent? fun c => do
    let (tag, c) ← readTag? l.inFlow c
    return (.tag tag, c)
  -- Scalars.
  else if c.atChar '|' && !l.inFlow then l.readBlockScalar? .literal
  else if c.atChar '>' && !l.inFlow then l.readBlockScalar? .folded
  else if c.atChar '\'' then l.readQuoted? .single .singleQuoted
  else if c.atChar '"' then l.readQuoted? .double .doubleQuoted
  else if PlainScalar.startsAt l.inFlow c then l.readPlain?
  else none

/-- Reads the tokens up to the end of the text. The fuel is more than the
    number of characters left, since every token but the last takes one. -/
def readAll? : Nat → Layout → Option (List Token)
  | 0, _ => none
  | fuel + 1, l => do
    let l ← l.skipBlanks.dropStaleKeys?
    let l := l.closeBlocks l.cursor.column
    if l.cursor.atEnd then
      let l ← (l.closeBlocks (-1)).dropKey?
      return l.tokens.reverse
    else readAll? fuel (← l.readToken?)

end Layout

/-- The tokens of a text; `none` if it cannot be split into tokens. -/
def Token.readAll? (text : String) : Option (List Token) :=
  if text.toList.all isAllowed then Layout.readAll? (text.length + 1) (.start text) else none

end CondExpr.Yaml
