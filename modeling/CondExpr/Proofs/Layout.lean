import CondExpr.Expression.Condition
import CondExpr.Proofs.Namespace

/-! # Layouts

  What a condition looks like once attributes and operands are taken out of
  it. The *shape* of a predicate is its kind, its comparator and how many
  values its list has; the *skeleton* of a condition has shapes for
  predicates. A *layout* is a skeleton whose leaves know the namespaces
  they stand at.

  A layout is written as a row of pieces, each a plain text or a
  placeholder. The placeholders come from namespaces and slots alone, and
  the plain texts from connectives, comparators and kinds alone.
-/

namespace CondExpr

/-! ## Section 1: Shapes -/

/-- All of a predicate but its attribute and its operands. -/
inductive Shape where
  | compare (op : Comparator)
  | between
  | beginsWith
  | contains
  | present
  | absent
  | size (op : Comparator)
  | oneOf (count : Nat)
  deriving DecidableEq, Repr

/-- The slots of the operands, in order. -/
def Shape.slots : Shape → List Slot
  | .compare _ | .beginsWith | .contains | .size _ => [.sole]
  | .between => [.low, .high]
  | .present | .absent => []
  | .oneOf count => (List.range count).map .item

theorem Shape.nodup_slots (s : Shape) : s.slots.Nodup := by
  cases s with
  | oneOf count =>
    apply List.pairwise_map.mpr
    apply List.nodup_range.imp
    intro i j hne heq
    exact hne (Slot.item.inj heq)
  | _ => simp [slots]

namespace Predicate

/-- The shape of a predicate. -/
def shape : Predicate → Shape
  | .compare _ op _ => .compare op
  | .between .. => .between
  | .beginsWith .. => .beginsWith
  | .contains .. => .contains
  | .present _ => .present
  | .absent _ => .absent
  | .size _ op _ => .size op
  | .oneOf _ values => .oneOf values.length

/-- The operands of a predicate, in order. -/
def operands : Predicate → List Scalar
  | .compare _ _ value | .contains _ value => [value]
  | .between _ low high => [low, high]
  | .beginsWith _ start => [.text start]
  | .present _ | .absent _ => []
  | .size _ _ bound => [.number bound]
  | .oneOf _ values => values

/-- The shape has a slot for every operand. -/
theorem length_slots_shape (p : Predicate) : p.shape.slots.length = p.operands.length := by
  cases p <;> simp [shape, Shape.slots, operands]

/-- The operands of a predicate in their slots. -/
def slotted (p : Predicate) : List (Slot × Scalar) := p.shape.slots.zip p.operands

theorem map_fst_slotted (p : Predicate) : p.slotted.map (·.1) = p.shape.slots :=
  List.map_fst_zip (Nat.le_of_eq p.length_slots_shape)

theorem map_snd_slotted (p : Predicate) : p.slotted.map (·.2) = p.operands :=
  List.map_snd_zip (Nat.le_of_eq p.length_slots_shape.symm)

end Predicate

/-! ## Section 2: Places in a tree -/

namespace Namespace

/-- The namespace of the predicate at the end of a path. -/
def leafAt (ns : Namespace) (path : List Nat) : Namespace := (ns.descend path).child 0

@[simp] theorem leafAt_nil (ns : Namespace) : ns.leafAt [] = ns.child 0 := rfl

@[simp] theorem leafAt_cons (ns : Namespace) (index : Nat) (path : List Nat) :
    ns.leafAt (index :: path) = (ns.child index).leafAt path := rfl

theorem name_leafAt_inj {ns : Namespace} {path path' : List Nat}
    (h : (ns.leafAt path).name = (ns.leafAt path').name) : path = path' := by
  unfold leafAt at h
  rw [child_descend, child_descend] at h
  exact List.append_cancel_right (name_descend_inj h)

theorem operand_leafAt_inj {ns : Namespace} {path path' : List Nat} {s s' : Slot}
    (h : (ns.leafAt path).operand s = (ns.leafAt path').operand s') : path = path' ∧ s = s' := by
  unfold leafAt at h
  rw [child_descend, child_descend] at h
  obtain ⟨hpath, hslot⟩ := operand_descend_inj h
  exact ⟨List.append_cancel_right hpath, hslot⟩

theorem WellFormed.leafAt {ns : Namespace} (h : ns.WellFormed) (path : List Nat) :
    (ns.leafAt path).WellFormed :=
  (h.descend path).child 0

end Namespace

namespace Expression

variable {Leaf Other : Type}

/-- The subtree that a path leads to: 0 stands for the left or only operand
    of a node and 1 for the right one. -/
def nodeAt? : Expression Leaf → List Nat → Option (Expression Leaf)
  | e, [] => some e
  | .join left _ _, 0 :: path => left.nodeAt? path
  | .join _ _ right, 1 :: path => right.nodeAt? path
  | .negation inner, 0 :: path => inner.nodeAt? path
  | _, _ => none

/-- A path leads through its first step. -/
theorem nodeAt?_cons {e d : Expression Leaf} {index : Nat}
    {path : List Nat} (h : e.nodeAt? (index :: path) = some d) :
    ∃ operand, e.nodeAt? [index] = some operand ∧ operand.nodeAt? path = some d := by
  cases e with
  | leaf p => simp [nodeAt?] at h
  | join left op right =>
    obtain _ | _ | index := index
    · exact ⟨left, by simp [nodeAt?], h⟩
    · exact ⟨right, by simp [nodeAt?], h⟩
    · simp [nodeAt?] at h
  | negation inner =>
    obtain _ | index := index
    · exact ⟨inner, by simp [nodeAt?], h⟩
    · simp [nodeAt?] at h

theorem depth_pos (e : Expression Leaf) : 0 < e.depth := by
  cases e <;> simp only [depth] <;> omega

private theorem depth_le_zero_iff {e : Expression Leaf} :
    e.depth ≤ 0 ↔ ∀ path d, e.nodeAt? path = some d → path.length < 0 := by
  have hpos := e.depth_pos
  constructor
  · omega
  · intro hpaths
    have hroot : e.nodeAt? [] = some e := by rw [nodeAt?]
    exact absurd (hpaths [] e hroot) (Nat.not_lt_zero _)

/-- The height is bounded when the paths to all nodes are. -/
theorem depth_le_iff {e : Expression Leaf} {bound : Nat} :
    e.depth ≤ bound ↔ ∀ path d, e.nodeAt? path = some d → path.length < bound := by
  -- A step down the tree takes one from the bound and one from every path.
  induction e generalizing bound with
  | leaf p =>
    constructor
    · intro hdepth path d hnode
      cases path with
      | nil => exact hdepth
      | cons index path => simp [nodeAt?] at hnode
    · intro hpaths
      exact hpaths [] _ rfl
  | join left op right ihl ihr =>
    obtain _ | bound := bound
    · exact depth_le_zero_iff
    · have hparts : 1 + max left.depth right.depth ≤ bound + 1 ↔
          left.depth ≤ bound ∧ right.depth ≤ bound := by omega
      rw [depth, hparts, ihl, ihr]
      constructor
      · intro hboth path d hnode
        obtain ⟨hleft, hright⟩ := hboth
        match path with
        | [] => exact Nat.zero_lt_succ bound
        | 0 :: path => exact Nat.succ_lt_succ (hleft path d hnode)
        | 1 :: path => exact Nat.succ_lt_succ (hright path d hnode)
        | (index + 2) :: path => simp [nodeAt?] at hnode
      · intro hpaths
        exact ⟨fun path d hnode => Nat.lt_of_succ_lt_succ (hpaths (0 :: path) d hnode),
          fun path d hnode => Nat.lt_of_succ_lt_succ (hpaths (1 :: path) d hnode)⟩
  | negation inner ih =>
    obtain _ | bound := bound
    · exact depth_le_zero_iff
    · have hpart : 1 + inner.depth ≤ bound + 1 ↔ inner.depth ≤ bound := by omega
      rw [depth, hpart, ih]
      constructor
      · intro hinner path d hnode
        match path with
        | [] => exact Nat.zero_lt_succ bound
        | 0 :: path => exact Nat.succ_lt_succ (hinner path d hnode)
        | (index + 1) :: path => simp [nodeAt?] at hnode
      · intro hpaths path d hnode
        exact Nat.lt_of_succ_lt_succ (hpaths (0 :: path) d hnode)

/-- The leaves from left to right, each with the path that leads to it. -/
def sites : Expression Leaf → List (List Nat × Leaf)
  | .leaf p => [([], p)]
  | .join left _ right =>
    (left.sites.map fun site => (0 :: site.1, site.2)) ++
      right.sites.map fun site => (1 :: site.1, site.2)
  | .negation inner => inner.sites.map fun site => (0 :: site.1, site.2)

theorem leaves_eq_map_sites (e : Expression Leaf) : e.leaves = e.sites.map (·.2) := by
  induction e with
  | leaf p => rfl
  | join left op right ihl ihr => simp [leaves, sites, ihl, ihr, Function.comp_def]
  | negation inner ih => simp [leaves, sites, ih, Function.comp_def]

/-- The sites are the paths that end at a leaf. -/
theorem mem_sites_iff {e : Expression Leaf} {path : List Nat} {p : Leaf} :
    (path, p) ∈ e.sites ↔ e.nodeAt? path = some (.leaf p) := by
  induction e generalizing path with
  | leaf q => cases path <;> simp [sites, nodeAt?, eq_comm]
  | join left op right ihl ihr =>
    match path with
    | [] => simp [sites, nodeAt?]
    | 0 :: path => simp [sites, nodeAt?, ihl]
    | 1 :: path => simp [sites, nodeAt?, ihr]
    | (index + 2) :: path => simp [sites, nodeAt?]
  | negation inner ih =>
    match path with
    | [] => simp [sites, nodeAt?]
    | 0 :: path => simp [sites, nodeAt?, ih]
    | (index + 1) :: path => simp [sites, nodeAt?]

private theorem nodup_map_cons {paths : List (List Nat)} (index : Nat) (h : paths.Nodup) :
    (paths.map (index :: ·)).Nodup :=
  List.pairwise_map.mpr (h.imp fun hne heq => hne (List.cons.inj heq).2)

/-- No two leaves stand at the same place. -/
theorem nodup_paths (e : Expression Leaf) : (e.sites.map (·.1)).Nodup := by
  have hmap (index : Nat) (sites : List (List Nat × Leaf)) :
      (sites.map fun site => (index :: site.1, site.2)).map (·.1) =
        (sites.map (·.1)).map (index :: ·) := by
    simp
  induction e with
  | leaf p => simp [sites]
  | join left op right ihl ihr =>
    rw [sites, List.map_append, hmap, hmap]
    refine List.nodup_append.mpr ⟨nodup_map_cons 0 ihl, nodup_map_cons 1 ihr, ?_⟩
    intro a ha b hb heq
    obtain ⟨_, _, rfl⟩ := List.mem_map.mp ha
    obtain ⟨_, _, rfl⟩ := List.mem_map.mp hb
    exact absurd (List.cons.inj heq).1 (by decide)
  | negation inner ih =>
    rw [sites, hmap]
    exact nodup_map_cons 0 ih

/-- The tree with its leaves placed at their namespaces. -/
def place (ns : Namespace) : Expression Leaf → Expression (Namespace × Leaf)
  | .leaf p => .leaf (ns.child 0, p)
  | .join left op right => .join (left.place (ns.child 0)) op (right.place (ns.child 1))
  | .negation inner => .negation (inner.place (ns.child 0))

/-- A placed leaf has the namespace that its path leads to. -/
theorem leaves_place (ns : Namespace) (e : Expression Leaf) :
    (e.place ns).leaves = e.sites.map fun site => (ns.leafAt site.1, site.2) := by
  induction e generalizing ns with
  | leaf p => rfl
  | join left op right ihl ihr => simp [place, leaves, sites, ihl, ihr, Function.comp_def]
  | negation inner ih => simp [place, leaves, sites, ih, Function.comp_def]

theorem sites_map (f : Leaf → Other) (e : Expression Leaf) :
    (e.map f).sites = e.sites.map fun site => (site.1, f site.2) := by
  induction e with
  | leaf p => rfl
  | join left op right ihl ihr => simp [map, sites, ihl, ihr, Function.comp_def]
  | negation inner ih => simp [map, sites, ih, Function.comp_def]

end Expression

/-! ## Section 3: Pieces -/

/-- A part of an expression text. -/
inductive Piece where
  | plain (text : String)
  | name (ns : Namespace)
  | operand (ns : Namespace) (slot : Slot)
  deriving DecidableEq, Repr

/-- The text of a piece. -/
def Piece.text : Piece → String
  | .plain text => text
  | .name ns => ns.name
  | .operand ns slot => ns.operand slot

/-- The text of a row of pieces. -/
def written (pieces : List Piece) : String := String.join (pieces.map Piece.text)

@[simp] theorem written_nil : written [] = "" := by
  simp [written]

@[simp] theorem written_cons (piece : Piece) (rest : List Piece) :
    written (piece :: rest) = piece.text ++ written rest := by
  simp [written]

@[simp] theorem written_append (front back : List Piece) :
    written (front ++ back) = written front ++ written back := by
  simp [written]

/-- The placeholders of a list of values, set off by commas. -/
def itemPieces (ns : Namespace) (count : Nat) : List Piece :=
  ((List.range count).map fun index => .operand ns (.item index)).intersperse (.plain ", ")

/-- How a predicate of the given shape is written. -/
def Shape.pieces (ns : Namespace) : Shape → List Piece
  | .compare op => [.name ns, .plain (" " ++ op.token ++ " "), .operand ns .sole]
  | .between => [.name ns, .plain " BETWEEN ", .operand ns .low, .plain " AND ", .operand ns .high]
  | .beginsWith => [.plain "begins_with (", .name ns, .plain ", ", .operand ns .sole, .plain ")"]
  | .contains => [.plain "contains (", .name ns, .plain ", ", .operand ns .sole, .plain ")"]
  | .present => [.plain "attribute_exists (", .name ns, .plain ")"]
  | .absent => [.plain "attribute_not_exists (", .name ns, .plain ")"]
  | .size op =>
    [.plain "size(", .name ns, .plain (") " ++ op.token ++ " "), .operand ns .sole, .plain ")"]
  | .oneOf count => .name ns :: .plain " IN (" :: itemPieces ns count ++ [.plain ")"]

/-- A condition without its data, its leaves at their namespaces. -/
abbrev Layout := Expression (Namespace × Shape)

/-- How a layout is written. -/
def Layout.pieces : Layout → List Piece
  | .leaf (ns, shape) => shape.pieces ns
  | .join left op right =>
    .plain "(" :: pieces left ++ .plain (") " ++ op.token ++ " (") :: pieces right ++ [.plain ")"]
  | .negation inner => .plain "NOT (" :: pieces inner ++ [.plain ")"]

namespace Condition

/-- The condition without its attributes and operands. -/
def skeleton (c : Condition) : Expression Shape := c.map Predicate.shape

/-- The layout of a condition at a namespace. -/
def layout (ns : Namespace) (c : Condition) : Layout := c.skeleton.place ns

theorem layout_join (ns : Namespace) (left : Condition) (op : Connective) (right : Condition) :
    layout ns (.join left op right) =
      .join (left.layout (ns.child 0)) op (right.layout (ns.child 1)) :=
  rfl

theorem layout_negation (ns : Namespace) (inner : Condition) :
    layout ns (.negation inner) = .negation (inner.layout (ns.child 0)) :=
  rfl

/-- The leaves of a layout are the shapes of the predicates at their places. -/
theorem leaves_layout (ns : Namespace) (c : Condition) :
    (c.layout ns).leaves = c.sites.map fun site => (ns.leafAt site.1, site.2.shape) := by
  unfold layout skeleton
  rw [Expression.leaves_place, Expression.sites_map, List.map_map]
  rfl

/-- Below a well-formed namespace all leaves stand at well-formed ones. -/
theorem wellFormed_layout {ns : Namespace} (h : ns.WellFormed) (c : Condition) :
    ∀ leaf ∈ (c.layout ns).leaves, leaf.1.WellFormed := by
  intro leaf hleaf
  rw [leaves_layout] at hleaf
  obtain ⟨site, _, rfl⟩ := List.mem_map.mp hleaf
  exact h.leafAt site.1

/-- A layout nests as deep as its condition. -/
theorem depth_layout (ns : Namespace) (c : Condition) : (c.layout ns).depth = c.depth := by
  induction c generalizing ns with
  | leaf p => rfl
  | join left op right ihl ihr => rw [layout_join, Expression.depth, Expression.depth, ihl, ihr]
  | negation inner ih => rw [layout_negation, Expression.depth, Expression.depth, ih]

end Condition
end CondExpr
