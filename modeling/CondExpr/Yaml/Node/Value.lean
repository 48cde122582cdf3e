import CondExpr.Yaml.Node.Reader
import CondExpr.Yaml.Scalar.Core

/-! # The value of a document

  Evaluates the node of a document. Aliases are replaced by what they mean;
  to keep that within bounds, there is a limit to how often it is done and
  to how deep collections may be nested.
-/

namespace CondExpr.Yaml

namespace Node

/-! ## Section 1: Evaluation -/

/-- How deep collections may be nested. -/
abbrev nestingLimit : Nat := 128

/-- How often aliases may be followed, for each unit of a document's size. -/
abbrev aliasesPerSize : Nat := 100

/-- A step of the evaluation, which keeps count of how many more aliases may
    be followed. -/
abbrev Evaluation := StateT Nat Option

/-- Follows an alias. It leads to no other alias, since those have no
    anchors. -/
def follow (anchored : List (Nat × Node)) : Node → Evaluation Node
  | .alias anchor => do
    match ← get with
    | 0 => failure
    | left + 1 =>
      set left
      (anchored.lookup anchor : Option Node)
  | node => return node

/-- The value of a scalar. One with a named local tag would be a variant of
    some type, and values have no variants. -/
def scalarValue? (tag : Option Tag) (style : Style) (text : String) : Option Json :=
  let untagged := if style = .plain then plainValue? text else some (.text text)
  match tag with
  | some tag =>
    if tag.localName?.isSome then none
    -- A local tag without a name says nothing.
    else if tag.isLocal then untagged
    else taggedValue? tag text
  | none => untagged

/-- The text of a key. All scalars can be keys, whatever their tags. -/
def keyText (anchored : List (Nat × Node)) (key : Node) : Evaluation String := do
  match ← follow anchored key with
  | .scalar _ _ text => return text
  | _ => failure

/-- A collection can have any tag but a local one with a name. -/
def checkTag (p : Properties) : Evaluation Unit :=
  if p.tag.any (·.localName?.isSome) then failure else return ()

/-- The value of a node below which there is room for a number of nested
    collections. -/
def valueWithin (anchored : List (Nat × Node)) : Nat → Node → Evaluation Json
  | room, node => do
    match room, ← follow anchored node with
    | _, .scalar p style text => scalarValue? p.tag style text
    | room + 1, .sequence p items => do
      checkTag p
      return .array (← items.mapM (valueWithin anchored room))
    | room + 1, .mapping p members => do
      checkTag p
      let members ← members.mapM fun (key, value) => do
        return (← keyText anchored key, ← valueWithin anchored room value)
      -- Of members with one key the last counts.
      return .object (Table.ofList members).entries
    | _, _ => failure

/-- How many aliases may be followed in a document. -/
def aliasLimit (node : Node) : Nat := node.size * aliasesPerSize

/-- The value of the node of a document. -/
def value? (node : Node) : Option Json :=
  (valueWithin node.anchored nestingLimit node).run' node.aliasLimit

end Node

/-! ## Section 2: Texts -/

/-- The value of a text. One without a node is null. -/
def read? (text : String) : Option Json := do
  match ← Node.read? text with
  | some node => node.value?
  | none => return .null

end CondExpr.Yaml
