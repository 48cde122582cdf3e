import CondExpr.Proofs.Fault
import CondExpr.Proofs.Separation
import Mathlib.Data.List.Perm.Basic

/-! # Conditions at other places

  Where a condition stands shows in its compiled expression only in the
  placeholders, and there only in the token that they begin with. So a
  condition that is rendered at one namespace is rendered at every other,
  and refused with the same error otherwise; and the one compiled expression
  turns into the other when the token of the one namespace, at the head of
  every placeholder, gives way to the token of the other. The text is taken
  apart without knowledge of how it was written, as the scanner does it: a
  placeholder is a sigil with the longest run of token characters after it.
-/

namespace CondExpr

/-! ## Section 1: Replacing placeholders -/

/-- A text with every placeholder replaced and everything else as it is. -/
def mapPlaceholders (f : List Char → List Char) : List Char → List Char
  | [] => []
  | c :: rest =>
    let run := rest.takeWhile isTokenChar
    if isSigil c && !run.isEmpty then
      f (c :: run) ++ mapPlaceholders f (rest.dropWhile isTokenChar)
    else c :: mapPlaceholders f rest
termination_by cs => cs.length
decreasing_by
  · exact Nat.lt_succ_of_le (List.dropWhile_sublist _).length_le
  · exact Nat.lt_succ_self _

section Replacing

variable {f : List Char → List Char}

/-- A text without sigils stays as it is. -/
theorem mapPlaceholders_append {front rest : List Char}
    (h : front.all (fun c => !isSigil c) = true) :
    mapPlaceholders f (front ++ rest) = front ++ mapPlaceholders f rest := by
  induction front with
  | nil => rfl
  | cons c front ih =>
    rw [List.all_cons, Bool.and_eq_true, Bool.not_eq_true'] at h
    obtain ⟨hc, hfront⟩ := h
    rw [List.cons_append, mapPlaceholders, hc, Bool.false_and, if_neg Bool.false_ne_true, ih hfront]
    rfl

/-- A sigil and a run that stops there are replaced as one placeholder. -/
theorem mapPlaceholders_cons_append {sigil : Char} {run rest : List Char}
    (hsigil : isSigil sigil = true) (hne : run ≠ []) (hrun : ∀ c ∈ run, isTokenChar c = true)
    (hrest : Stops isTokenChar rest) :
    mapPlaceholders f (sigil :: (run ++ rest)) = f (sigil :: run) ++ mapPlaceholders f rest := by
  rw [mapPlaceholders, takeWhile_run hrun hrest, dropWhile_run hrun hrest]
  simp [hsigil, hne]

/-- Piece by piece, the second row is the first with its placeholders
    replaced. -/
inductive Replaced (f : List Char → List Char) : List Piece → List Piece → Prop where
  | nil : Replaced f [] []
  | plain {text : String} {rest rest' : List Piece} (hrest : Replaced f rest rest') :
      Replaced f (.plain text :: rest) (.plain text :: rest')
  | name {ns ns' : Namespace} {rest rest' : List Piece}
      (hname : f ns.name.toList = ns'.name.toList) (hrest : Replaced f rest rest') :
      Replaced f (.name ns :: rest) (.name ns' :: rest')
  | operand {ns ns' : Namespace} {slot : Slot} {rest rest' : List Piece}
      (hoperand : f (ns.operand slot).toList = (ns'.operand slot).toList)
      (hrest : Replaced f rest rest') :
      Replaced f (.operand ns slot :: rest) (.operand ns' slot :: rest')

theorem Replaced.append {front front' back back' : List Piece} (hfront : Replaced f front front')
    (hback : Replaced f back back') : Replaced f (front ++ back) (front' ++ back') := by
  induction hfront with
  | nil => exact hback
  | plain _ ih => exact .plain ih
  | name hname _ ih => exact .name hname ih
  | operand hoperand _ ih => exact .operand hoperand ih

/-- In a spaced row exactly the placeholders are replaced, each as a whole. -/
theorem Replaced.mapPlaceholders_written {pieces pieces' : List Piece}
    (h : Replaced f pieces pieces') (hspaced : Spaced pieces) :
    mapPlaceholders f (written pieces).toList = (written pieces').toList := by
  induction h with
  | nil => simp [mapPlaceholders]
  | @plain text rest rest' _ ih =>
    cases hspaced with
    | plain htext hrest =>
      rw [written_cons, written_cons, String.toList_append, String.toList_append, ← ih hrest]
      exact mapPlaceholders_append htext
  | @name ns ns' rest rest' hname _ ih =>
    cases hspaced with
    | name hns hstops hrest =>
      rw [written_cons, written_cons, String.toList_append, String.toList_append, ← ih hrest]
      show mapPlaceholders f (ns.name.toList ++ _) = ns'.name.toList ++ _
      rw [← hname, ns.toList_name]
      exact mapPlaceholders_cons_append (by decide) hns.nonempty hns.tokenChars hstops
  | @operand ns ns' slot rest rest' hoperand _ ih =>
    cases hspaced with
    | operand hns hstops hrest =>
      have hne : ns.token.toList ++ slot.suffix.toList ≠ [] := by simp [hns.nonempty]
      rw [written_cons, written_cons, String.toList_append, String.toList_append, ← ih hrest]
      show mapPlaceholders f ((ns.operand slot).toList ++ _) = (ns'.operand slot).toList ++ _
      rw [← hoperand, ns.toList_operand]
      exact mapPlaceholders_cons_append (by decide) hne (hns.operand_tokenChars slot) hstops

/-- All placeholders of the one namespace are replaced by those of the other. -/
structure Namespace.Becomes (f : List Char → List Char) (ns ns' : Namespace) : Prop where
  name : f ns.name.toList = ns'.name.toList
  operand : ∀ slot, f (ns.operand slot).toList = (ns'.operand slot).toList

private theorem replaced_operands {ns ns' : Namespace} (h : ns.Becomes f ns') :
    ∀ slots : List Slot, Replaced f ((slots.map (Piece.operand ns)).intersperse (.plain ", "))
      ((slots.map (Piece.operand ns')).intersperse (.plain ", "))
  | [] => .nil
  | [slot] => .operand (h.operand slot) .nil
  | slot :: next :: rest => by
    have ih := replaced_operands h (next :: rest)
    rw [List.map_cons, List.map_cons, List.map_cons, List.map_cons, List.intersperse_cons_cons,
      List.intersperse_cons_cons]
    exact .operand (h.operand slot) (.plain ih)

/-- A shape is written at both namespaces alike. -/
theorem Shape.replaced_pieces {ns ns' : Namespace} (h : ns.Becomes f ns') (s : Shape) :
    Replaced f (s.pieces ns) (s.pieces ns') := by
  have hclosed (slot : Slot) :
      Replaced f [.operand ns slot, .plain ")"] [.operand ns' slot, .plain ")"] :=
    .operand (h.operand slot) (.plain .nil)
  cases s with
  | compare op => exact .name h.name (.plain (.operand (h.operand .sole) .nil))
  | between =>
    exact .name h.name (.plain (.operand (h.operand .low) (.plain
      (.operand (h.operand .high) .nil))))
  | beginsWith => exact .plain (.name h.name (.plain (hclosed .sole)))
  | contains => exact .plain (.name h.name (.plain (hclosed .sole)))
  | present => exact .plain (.name h.name (.plain .nil))
  | absent => exact .plain (.name h.name (.plain .nil))
  | size op => exact .plain (.name h.name (.plain (hclosed .sole)))
  | oneOf count =>
    refine .name h.name (.plain (Replaced.append ?_ (.plain .nil)))
    rw [itemPieces_eq, itemPieces_eq]
    exact replaced_operands h _

/-- So is a condition, when the places of its leaves are replaced. -/
theorem Condition.replaced_pieces {ns ns' : Namespace}
    (h : ∀ path, (ns.leafAt path).Becomes f (ns'.leafAt path)) (c : Condition) :
    Replaced f (Layout.pieces (c.layout ns)) (Layout.pieces (c.layout ns')) := by
  -- A step down the tree takes the first step off all paths.
  induction c generalizing ns ns' with
  | leaf p => exact Shape.replaced_pieces (h []) p.shape
  | join left op right ihl ihr =>
    have hleft := ihl fun path => h (0 :: path)
    have hright := ihr fun path => h (1 :: path)
    rw [layout_join, layout_join, Layout.pieces, Layout.pieces]
    exact ((Replaced.plain hleft).append (.plain hright)).append (.plain .nil)
  | negation inner ih =>
    have hinner := ih fun path => h (0 :: path)
    rw [layout_negation, layout_negation, Layout.pieces, Layout.pieces]
    exact (Replaced.plain hinner).append (.plain .nil)

end Replacing

/-! ## Section 2: From one namespace to another -/

/-- The placeholder with the token of the source, which it begins with after
    its sigil, replaced by the token of the target. A placeholder that does
    not begin with the token of the source stays as it is. -/
def relocate (source target : Namespace) : List Char → List Char
  | [] => []
  | sigil :: run =>
    if source.token.toList <+: run then
      sigil :: (target.token.toList ++ run.drop source.token.toList.length)
    else sigil :: run

/-- The key of a table, relocated. -/
def relocateKey (source target : Namespace) (key : String) : String :=
  .ofList (relocate source target key.toList)

/-- The entries of a table with their keys relocated; what the keys stand for
    stays as it is. -/
def relocateEntries {α : Type} (source target : Namespace) (entries : List (String × α)) :
    List (String × α) :=
  entries.map fun entry => (relocateKey source target entry.1, entry.2)

/-- A compiled expression with all its placeholders relocated, in the text
    and in the tables; the tables come in the order of the new keys. -/
def CompiledExpression.relocated (source target : Namespace) (x : CompiledExpression) :
    CompiledExpression :=
  ⟨.ofList (mapPlaceholders (relocate source target) x.expression.toList),
    .ofList (relocateEntries source target x.names.entries),
    .ofList (relocateEntries source target x.values.entries)⟩

section Places

variable {source target : Namespace}

theorem relocate_append (sigil : Char) (rest : List Char) :
    relocate source target (sigil :: (source.token.toList ++ rest)) =
      sigil :: (target.token.toList ++ rest) := by
  rw [relocate, if_pos (List.prefix_append _ _), List.drop_left]

/-- A path adds the same to every token. -/
theorem toList_token_leafAt (ns : Namespace) (path : List Nat) :
    (ns.leafAt path).token.toList = ns.token.toList ++ Namespace.pathText (path ++ [0]) := by
  rw [Namespace.leafAt, Namespace.child_descend, Namespace.token_descend]

/-- Relocation leads from every place below the source to the same place
    below the target. -/
theorem becomes_leafAt (path : List Nat) :
    (source.leafAt path).Becomes (relocate source target) (target.leafAt path) := by
  have hname (ns : Namespace) : (ns.leafAt path).name.toList =
      '#' :: (ns.token.toList ++ Namespace.pathText (path ++ [0])) := by
    rw [Namespace.toList_name, toList_token_leafAt]
  have hoperand (ns : Namespace) (slot : Slot) : ((ns.leafAt path).operand slot).toList =
      ':' :: (ns.token.toList ++ (Namespace.pathText (path ++ [0]) ++ slot.suffix.toList)) := by
    rw [Namespace.toList_operand, toList_token_leafAt, List.append_assoc]
  constructor
  · rw [hname, hname, relocate_append]
  · intro slot
    rw [hoperand, hoperand, relocate_append]

theorem relocateKey_name (path : List Nat) :
    relocateKey source target (source.leafAt path).name = (target.leafAt path).name := by
  rw [relocateKey, (becomes_leafAt path).name, String.ofList_toList]

theorem relocateKey_operand (path : List Nat) (slot : Slot) :
    relocateKey source target ((source.leafAt path).operand slot) =
      (target.leafAt path).operand slot := by
  rw [relocateKey, (becomes_leafAt path).operand, String.ofList_toList]

end Places

theorem Condition.relocateEntries_nameEntries (source target : Namespace) (c : Condition) :
    relocateEntries source target (c.nameEntries source) = c.nameEntries target := by
  simp [relocateEntries, nameEntries, relocateKey_name, Function.comp_def]

theorem Condition.relocateEntries_operandEntries (source target : Namespace) (c : Condition) :
    relocateEntries source target (c.operandEntries source) = c.operandEntries target := by
  simp [relocateEntries, operandEntries, relocateKey_operand, List.map_flatMap, Function.comp_def]

/-! ## Section 3: Rendering elsewhere -/

namespace Rendered

variable {encode : Encoder} {source target : Namespace} {c : Condition} {x y : CompiledExpression}

/-- The text is relocated. -/
theorem relocated_expression (hsource : source.WellFormed) (hx : Rendered encode source c x)
    (hy : Rendered encode target c y) :
    mapPlaceholders (relocate source target) x.expression.toList = y.expression.toList := by
  have hreplaced : Replaced (relocate source target) (Layout.pieces (c.layout source))
      (Layout.pieces (c.layout target)) := c.replaced_pieces becomes_leafAt
  have hspaced : Spaced (Layout.pieces (c.layout source)) :=
    Layout.spaced_pieces (Condition.wellFormed_layout hsource c)
  rw [hx.expression_eq, hy.expression_eq, hreplaced.mapPlaceholders_written hspaced]

/-- So are the entries of the name table. -/
theorem relocated_names (hx : Rendered encode source c x) (hy : Rendered encode target c y) :
    y.names.entries.Perm (relocateEntries source target x.names.entries) := by
  have hmoved : (relocateEntries source target x.names.entries).Perm (c.nameEntries target) := by
    rw [← c.relocateEntries_nameEntries source target]
    exact hx.names_perm.map _
  exact hy.names_perm.trans hmoved.symm

private theorem returned_inj {entries entries' : List (String × AttributeValue)}
    (h : (entries.map fun entry => (entry.1, (Except.ok entry.2 : Except EncodeError _))).Perm
      (entries'.map fun entry => (entry.1, .ok entry.2))) : entries.Perm entries' := by
  apply (List.map_perm_map_iff ?_).mp h
  intro entry entry' heq
  obtain ⟨hkey, hvalue⟩ := Prod.mk.inj heq
  exact Prod.ext hkey (Except.ok.inj hvalue)

/-- And those of the value table. -/
theorem relocated_values (hx : Rendered encode source c x) (hy : Rendered encode target c y) :
    y.values.entries.Perm (relocateEntries source target x.values.entries) := by
  -- The values are known through the encoder only, as its results beside the keys.
  have hmoved : ((returned x.values).map fun entry =>
      (relocateKey source target entry.1, entry.2)).Perm
        ((c.operandEntries target).map fun entry => (entry.1, encode entry.2)) := by
    rw [← c.relocateEntries_operandEntries source target, relocateEntries, List.map_map]
    have hperm := hx.values_perm.map fun entry => (relocateKey source target entry.1, entry.2)
    rw [List.map_map] at hperm
    exact hperm
  have hreturned := hy.values_perm.trans hmoved.symm
  rw [returned, returned, List.map_map] at hreturned
  apply returned_inj
  rw [relocateEntries, List.map_map]
  exact hreturned

/-- What is rendered at the target is what is rendered at the source,
    relocated. -/
theorem eq_relocated (hsource : source.WellFormed) (hx : Rendered encode source c x)
    (hy : Rendered encode target c y) : y = x.relocated source target := by
  have htext : y.expression =
      .ofList (mapPlaceholders (relocate source target) x.expression.toList) := by
    rw [relocated_expression hsource hx hy, String.ofList_toList]
  have hnames : y.names = .ofList (relocateEntries source target x.names.entries) :=
    Table.eq_ofList_of_perm (relocated_names hx hy)
  have hvalues : y.values = .ofList (relocateEntries source target x.values.entries) :=
    Table.eq_ofList_of_perm (relocated_values hx hy)
  cases y
  cases htext
  cases hnames
  cases hvalues
  rfl

end Rendered

namespace Condition

variable {encode : Encoder}

/-- Where a condition stands has no part in whether it is refused, nor why. -/
theorem render_eq_map_relocated {source : Namespace} (hsource : source.WellFormed)
    (target : Namespace) (c : Condition) :
    c.render encode target =
      (c.render encode source).map (CompiledExpression.relocated source target) := by
  have hfault : fault? (c.render encode target) = fault? (c.render encode source) := by
    unfold render
    rw [fault?_renderBelow, fault?_renderBelow]
  cases hx : c.render encode source with
  | error e =>
    rw [hx, fault?_error, fault?_eq_some_iff] at hfault
    rw [hfault]
    rfl
  | ok x =>
    rw [hx, fault?_ok, fault?_eq_none_iff] at hfault
    obtain ⟨y, hy⟩ := hfault
    have heq : y = x.relocated source target :=
      (render_eq_ok_iff.mp hx).1.eq_relocated hsource (render_eq_ok_iff.mp hy).1
    rw [hy, heq]
    rfl

/-- **The place does not matter.** Rendering at the target is rendering at
    the source and relocating what comes out: errors stay as they are, and of
    a compiled expression nothing but the token at the head of placeholders
    changes. All placeholders of the text and all keys of the tables have
    the token of the source there, with an underscore behind it, and no two
    entries fall together when they are relocated. The text of a connective
    or a negation is made of those of its operands, rendered on their own at
    child 0 and child 1, where the nesting is counted anew. -/
theorem render_relocated {source : Namespace} (hsource : isRootToken source.token = true)
    (target : Namespace) (encode : Encoder) (c : Condition) :
    c.render encode target =
      (c.render encode source).map (CompiledExpression.relocated source target) ∧
    ∀ x, c.render encode source = .ok x →
      (∀ found ∈ placeholdersIn x.expression.toList, LiesBelow source.token (.ofList found)) ∧
      (∀ key ∈ x.names.keys, LiesBelow source.token key) ∧
      (∀ key ∈ x.values.keys, LiesBelow source.token key) ∧
      (x.relocated source target).names.entries.Perm
        (relocateEntries source target x.names.entries) ∧
      (x.relocated source target).values.entries.Perm
        (relocateEntries source target x.values.entries) ∧
      (∀ (left right : Condition) op, c = .join left op right →
        ∃ y z, left.render encode (source.child 0) = .ok y ∧
          right.render encode (source.child 1) = .ok z ∧
          x.expression = "(" ++ y.expression ++ ") " ++ op.token ++ " (" ++ z.expression ++ ")") ∧
      ∀ inner : Condition, c = .negation inner →
        ∃ y, inner.render encode (source.child 0) = .ok y ∧
          x.expression = "NOT (" ++ y.expression ++ ")" := by
  have hmoved : c.render encode target =
      (c.render encode source).map (CompiledExpression.relocated source target) :=
    render_eq_map_relocated (Namespace.wellFormed_root hsource) target c
  refine ⟨hmoved, ?_⟩
  intro x hx
  obtain ⟨hrendered, _⟩ := render_eq_ok_iff.mp hx
  have hy : c.render encode target = .ok (x.relocated source target) := by
    rw [hmoved, hx]
    rfl
  obtain ⟨hrendered', _⟩ := render_eq_ok_iff.mp hy
  refine ⟨hrendered.liesBelow_found hsource, hrendered.liesBelow_names,
    hrendered.liesBelow_values, hrendered.relocated_names hrendered',
    hrendered.relocated_values hrendered', ?_, ?_⟩
  · rintro left right op rfl
    exact render_join_parts hx
  · rintro inner rfl
    exact render_negation_part hx

/-- The token of the target extends that of the source just as a path does. -/
theorem render_relocated_extended_token :
    ∃ x, render .standard (.root "C") (.join (.leaf (.between "a" (.text "1") (.text "2"))) .or
        (.negation (.leaf (.oneOf "b" [.text "3", .boolean true])))) = .ok x ∧
      x.expression =
        "(#C_0_0 BETWEEN :C_0_0_L AND :C_0_0_R) OR (NOT (#C_1_0_0 IN (:C_1_0_0I0, :C_1_0_0I1)))" ∧
      (x.relocated (.root "C") (.root "C_0")).expression =
        "(#C_0_0_0 BETWEEN :C_0_0_0_L AND :C_0_0_0_R) OR " ++
          "(NOT (#C_0_1_0_0 IN (:C_0_1_0_0I0, :C_0_1_0_0I1)))" ∧
      (x.relocated (.root "C") (.root "C_0")).names.entries =
        [("#C_0_0_0", "a"), ("#C_0_1_0_0", "b")] := by
  have hroot : isRootToken (Namespace.root "C").token = true := by decide
  have hmoved := (render_relocated hroot (.root "C_0") .standard
    (.join (.leaf (.between "a" (.text "1") (.text "2"))) .or
      (.negation (.leaf (.oneOf "b" [.text "3", .boolean true]))))).1
  have hexpected := Except.ok.inj hmoved
  refine ⟨_, rfl, rfl, ?_, ?_⟩
  · rw [← hexpected]
    rfl
  · rw [← hexpected]
    rfl

end Condition
end CondExpr
