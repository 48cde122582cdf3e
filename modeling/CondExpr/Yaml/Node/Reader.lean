import CondExpr.Yaml.Layout
import CondExpr.Yaml.Node.Basic

/-! # Reading nodes

  Puts the tokens of a text together to the node of its one document. An
  anchor gets as its number how many anchor names are known when it is met,
  and an alias the number that its name has at that time.
-/

namespace CondExpr.Yaml

/-! ## Section 1: State -/

/-- What is left of a document, and what is known of it. -/
structure Unread where
  tokens : List Token
  /-- The anchor names met so far, each with its last number. -/
  anchors : List (String × Nat)
  /-- What the tag handles stand for. -/
  handles : List (String × Tag)
  deriving Repr

namespace Unread

/-- Without the next token. -/
def drop (u : Unread) : Unread := { u with tokens := u.tokens.tail }

/-- The next token is the given one. -/
def nextIs (u : Unread) (token : Token) : Bool := u.tokens.head? = some token

/-- The next token is one of the given ones. -/
def nextIn (u : Unread) (tokens : List Token) : Bool := u.tokens.head?.any tokens.contains

/-! ## Section 2: Properties -/

/-- Reads an anchor, if there is one. -/
def readAnchor (u : Unread) : Option Nat × Unread :=
  match u.tokens with
  | .anchor name :: rest =>
    let number := u.anchors.length
    let anchors := (name, number) :: u.anchors.filter (·.1 ≠ name)
    (some number, { u with tokens := rest, anchors })
  | _ => (none, u)

/-- Reads a tag, if there is one. Its handle must be known. -/
def readTag? (u : Unread) : Option (Option Tag × Unread) :=
  match u.tokens with
  | .tag written :: rest => do
    let start ← if written.handle = "" then some (.ofText "") else u.handles.lookup written.handle
    return (some (start ++ written.suffix), { u with tokens := rest })
  | _ => some (none, u)

/-- Reads the properties of a node, which may be in either order. -/
def readProperties? (u : Unread) : Option (Properties × Unread) := do
  let (early, u) := u.readAnchor
  let (tag, u) ← u.readTag?
  let (late, u) := if early.isSome then (none, u) else u.readAnchor
  return (⟨early.or late, tag⟩, u)

/-! ## Section 3: Nodes -/

/-- Which block collections may come next. -/
inductive Blocks where
  /-- None, inside a flow collection. -/
  | never
  /-- Those that are indented further. -/
  | indented
  /-- Also sequences that are indented like the mapping they are in. -/
  | all
  deriving DecidableEq, Repr

/-- A way to read a node. -/
abbrev NodeReading := Unread → Option (Node × Unread)

/-- A node, or the empty one if a token comes next that ends it. -/
def readOrEmpty? (stops : List Token) (read? : NodeReading) : NodeReading := fun u =>
  if u.nextIn stops then some (.empty, u) else read? u

/-- The value of a member, after its key. -/
def readMemberValue? (stops : List Token) (read? : NodeReading) : NodeReading := fun u =>
  if u.nextIs .value then readOrEmpty? stops read? u.drop else some (.empty, u)

/-- The key of a pair in a flow sequence, after its token. Where there is
    none, the token that comes instead does not count. -/
def readPairKey? (read? : NodeReading) : NodeReading := fun u =>
  if u.nextIn [.value, .comma, .flowSequenceEnd] then some (.empty, u.drop) else read? u

/-- Finds out whether a flow collection has another entry. Behind its end
    the answer is no. -/
def nextFlowEntry? (close : Token) (first : Bool) (u : Unread) : Option (Bool × Unread) :=
  if u.nextIs close then some (false, u.drop)
  else if first then some (true, u)
  else if !u.nextIs .comma then none
  else if u.drop.nextIs close then some (false, u.drop.drop)
  else some (true, u.drop)

mutual

/-- A node. Fuel of twice the number of tokens, and two more, is enough,
    since every second step takes one. -/
def readNode? : Nat → Blocks → NodeReading
  | 0, _, _ => none
  | fuel + 1, blocks, u =>
    match u.tokens with
    | .alias name :: _ => do return (.alias (← u.anchors.lookup name), u.drop)
    | _ => do
      let (p, u) ← u.readProperties?
      match u.tokens.head? with
      | some (.scalar style text) => return (.scalar p style text, u.drop)
      | some .flowSequenceStart =>
        let (items, u) ← readFlowItems? fuel true u.drop
        return (.sequence p items, u)
      | some .flowMappingStart =>
        let (members, u) ← readFlowMembers? fuel true u.drop
        return (.mapping p members, u)
      | next =>
        if next = some .sequenceStart && blocks ≠ .never then
          let (items, u) ← readItems? fuel true u.drop
          return (.sequence p items, u)
        else if next = some .mappingStart && blocks ≠ .never then
          let (members, u) ← readMembers? fuel u.drop
          return (.mapping p members, u)
        -- The mark of the first item is left to the items.
        else if next = some .item && blocks = .all then
          let (items, u) ← readItems? fuel false u
          return (.sequence p items, u)
        -- Properties can have nothing after them, which makes an empty scalar.
        else if p = .none then none
        else return (.scalar p .plain "", u)

/-- The items of a block sequence that is, or is not, indented further than
    what it is in. -/
def readItems? : Nat → Bool → Unread → Option (List Node × Unread)
  | 0, _, _ => none
  | fuel + 1, indented, u => do
    if u.nextIs .item then
      let stops := if indented then [.item, .blockEnd] else [.item, .key, .value, .blockEnd]
      let (item, u) ← readOrEmpty? stops (readNode? fuel .indented) u.drop
      let (rest, u) ← readItems? fuel indented u
      return (item :: rest, u)
    else if !indented then return ([], u)
    else if u.nextIs .blockEnd then return ([], u.drop)
    else none

/-- The members of a block mapping. -/
def readMembers? : Nat → Unread → Option (List (Node × Node) × Unread)
  | 0, _ => none
  | fuel + 1, u => do
    if u.nextIs .key then
      let stops := [.key, .value, .blockEnd]
      let (key, u) ← readOrEmpty? stops (readNode? fuel .all) u.drop
      let (value, u) ← readMemberValue? stops (readNode? fuel .all) u
      let (rest, u) ← readMembers? fuel u
      return ((key, value) :: rest, u)
    else if u.nextIs .blockEnd then return ([], u.drop)
    else none

/-- The items of a flow sequence. An item may be a pair, which makes a
    mapping of one member. -/
def readFlowItems? : Nat → Bool → Unread → Option (List Node × Unread)
  | 0, _, _ => none
  | fuel + 1, first, u => do
    let (more, u) ← nextFlowEntry? .flowSequenceEnd first u
    if !more then return ([], u)
    else if u.nextIs .key then
      let (key, u) ← readPairKey? (readNode? fuel .never) u.drop
      let (value, u) ← readMemberValue? [.comma, .flowSequenceEnd] (readNode? fuel .never) u
      let (rest, u) ← readFlowItems? fuel false u
      return (.mapping .none [(key, value)] :: rest, u)
    else
      let (item, u) ← readNode? fuel .never u
      let (rest, u) ← readFlowItems? fuel false u
      return (item :: rest, u)

/-- The members of a flow mapping. A key can go without a value. -/
def readFlowMembers? : Nat → Bool → Unread → Option (List (Node × Node) × Unread)
  | 0, _, _ => none
  | fuel + 1, first, u => do
    let (more, u) ← nextFlowEntry? .flowMappingEnd first u
    if !more then return ([], u)
    else if u.nextIs .key then
      let stops := [.value, .comma, .flowMappingEnd]
      let (key, u) ← readOrEmpty? stops (readNode? fuel .never) u.drop
      let (value, u) ← readMemberValue? stops.tail (readNode? fuel .never) u
      let (rest, u) ← readFlowMembers? fuel false u
      return ((key, value) :: rest, u)
    else
      let (key, u) ← readNode? fuel .never u
      let (rest, u) ← readFlowMembers? fuel false u
      return ((key, .empty) :: rest, u)

end

end Unread

/-! ## Section 4: Documents -/

/-- The token lies between documents. -/
def Token.isSeparator : Token → Bool
  | .version .. | .tagHandle .. | .documentStart | .documentEnd => true
  | _ => false

/-- Reads directives, after those that have given the handles. There can be
    one version, 1.1 or 1.2, and each handle can be given once. -/
def readDirectives? (versioned : Bool) (handles : List (String × Tag)) :
    List Token → Option (List (String × Tag) × List Token)
  | .version major minor :: rest =>
    if versioned || major ≠ 1 || minor ≠ 1 && minor ≠ 2 then none
    else readDirectives? true handles rest
  | .tagHandle handle expansion :: rest =>
    if handles.any (·.1 = handle) then none
    else readDirectives? versioned ((handle, expansion) :: handles) rest
  | tokens => some (handles, tokens)

/-- What tag handles stand for unless directives say otherwise. -/
def standardHandles : List (String × Tag) :=
  [("!", .ofText "!"), ("!!", .ofText Tag.coreStart)]

/-- Reads the node of a document. If there are directives, the mark that
    starts the document must come after them. -/
def readDocument? (tokens : List Token) : Option (Node × List Token) := do
  let fuel := 2 * tokens.length + 2
  let (handles, rest) ← readDirectives? false [] tokens
  let u : Unread := ⟨rest, [], handles ++ standardHandles⟩
  if u.nextIs .documentStart then
    if u.drop.tokens.head?.all Token.isSeparator then return (.empty, u.drop.tokens)
    else
      let (node, u) ← u.drop.readNode? fuel .indented
      return (node, u.tokens)
  else if rest.length < tokens.length then none
  else
    let (node, u) ← u.readNode? fuel .indented
    return (node, u.tokens)

/-- Reads the node of a text; `none` if the text is at fault or has a second
    document. A text without tokens has no node. -/
def Node.read? (text : String) : Option (Option Node) := do
  let tokens ← Token.readAll? text
  if tokens.isEmpty then return none
  else
    let (node, rest) ← readDocument? tokens
    if rest.all (· = .documentEnd) then return node else none

end CondExpr.Yaml
