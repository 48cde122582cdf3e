import CondExpr.Yaml.Token

/-! # YAML nodes

  What a YAML document says, with the meaning of tags and aliases still
  open. Anchors are numbered. Two nodes of a document can have the same
  number; an alias then means the later one.
-/

namespace CondExpr.Yaml

/-- What a node may have in front of its content. -/
structure Properties where
  /-- The number of its anchor. -/
  anchor : Option Nat
  /-- Its tag, in full. -/
  tag : Option Tag
  deriving DecidableEq, Repr

/-- A node without properties. -/
def Properties.none : Properties := ⟨.none, .none⟩

/-- A node of a document. -/
inductive Node where
  | scalar (properties : Properties) (style : Style) (text : String)
  | sequence (properties : Properties) (items : List Node)
  | mapping (properties : Properties) (members : List (Node × Node))
  /-- Another node, by its anchor. -/
  | alias (anchor : Nat)
  deriving Repr, Inhabited

namespace Node

/-- The scalar that stands where there is nothing. -/
def empty : Node := .scalar .none .plain ""

mutual

/-- The size of a node: one for a scalar or alias, and two for a collection
    in addition to the sizes of its parts. -/
def size : Node → Nat
  | .scalar .. => 1
  | .alias _ => 1
  | .sequence _ items => sizeOfItems items + 2
  | .mapping _ members => sizeOfMembers members + 2

/-- The sizes of the items of a sequence, in total. -/
def sizeOfItems : List Node → Nat
  | [] => 0
  | item :: rest => item.size + sizeOfItems rest

/-- The sizes of the members of a mapping, in total. -/
def sizeOfMembers : List (Node × Node) → Nat
  | [] => 0
  | (key, value) :: rest => key.size + value.size + sizeOfMembers rest

end

/-- A node under its anchor, if it has one. -/
def underAnchor (node : Node) (properties : Properties) : List (Nat × Node) :=
  properties.anchor.toList.map (·, node)

mutual

/-- The nodes with anchors in a node, last one first. -/
def anchored : Node → List (Nat × Node)
  | .scalar properties style text => underAnchor (.scalar properties style text) properties
  | .alias _ => []
  | .sequence properties items =>
    anchoredItems items ++ underAnchor (.sequence properties items) properties
  | .mapping properties members =>
    anchoredMembers members ++ underAnchor (.mapping properties members) properties

/-- The nodes with anchors in the items of a sequence, last one first. -/
def anchoredItems : List Node → List (Nat × Node)
  | [] => []
  | item :: rest => anchoredItems rest ++ item.anchored

/-- The nodes with anchors in the members of a mapping, last one first. -/
def anchoredMembers : List (Node × Node) → List (Nat × Node)
  | [] => []
  | (key, value) :: rest => anchoredMembers rest ++ (value.anchored ++ key.anchored)

end

end Node
end CondExpr.Yaml
