import CondExpr.Compiled.Render
import CondExpr.Proofs.Layout
import CondExpr.Proofs.Results

/-! # What rendering yields

  Rendering a predicate is encoding its operands, whatever its kind. A
  condition that is rendered is rendered node by node: `Rendered` holds of a
  condition, its namespace and its compiled expression when every predicate
  is rendered and every connective and negation puts together what its
  operands became. The nesting limit is met beside it. Statements about
  compiled expressions are proved by induction on `Rendered`.
-/

namespace CondExpr

/-! ## Section 1: Predicates -/

private theorem mapError_encoding_inj {x y : Except EncodeError AttributeValue}
    (h : x.mapError RenderError.encoding = y.mapError RenderError.encoding) : x = y := by
  cases x with
  | error e =>
    cases y with
    | error e' => rw [RenderError.encoding.inj (Except.error.inj h)]
    | ok value => cases h
  | ok value =>
    cases y with
    | error e' => cases h
    | ok value' => rw [Except.ok.inj h]

/-- Encoding all operands in order is getting a value from every one. -/
theorem mapM_encodeOperand_eq_ok_iff {encode : Encoder} {operands : List Scalar}
    {encoded : List AttributeValue} :
    operands.mapM (encodeOperand encode) = .ok encoded ↔ operands.map encode = encoded.map .ok := by
  have hleft : operands.map (encodeOperand encode) =
      (operands.map encode).map (·.mapError RenderError.encoding) := by
    simp [encodeOperand]
  have hright : (encoded.map .ok : List (Except EncodeError AttributeValue)).map
      (·.mapError RenderError.encoding) = encoded.map .ok := by
    rw [List.map_map]
    rfl
  rw [mapM_eq_ok_iff, hleft, ← hright]
  exact List.map_inj_right fun _ _ h => mapError_encoding_inj h

/-- Pieces set off by a plain text are written like texts set off by it. -/
theorem written_intersperse (separator : String) : ∀ pieces : List Piece,
    written (pieces.intersperse (.plain separator)) = separator.intercalate (pieces.map Piece.text)
  | [] => by simp
  | [piece] => by simp
  | piece :: next :: rest => by
    have ih := written_intersperse separator (next :: rest)
    rw [List.intersperse_cons_cons, written_cons, written_cons, ih]
    simp [Piece.text, String.append_assoc]

theorem written_itemPieces (ns : Namespace) (count : Nat) :
    written (itemPieces ns count) = ", ".intercalate (listPlaceholders ns count) := by
  unfold itemPieces listPlaceholders
  rw [written_intersperse, List.map_map]
  rfl

namespace Predicate

/-- What a predicate compiles to, given its encoded operands. -/
def compiled (ns : Namespace) (p : Predicate) (encoded : List AttributeValue) :
    CompiledExpression :=
  ⟨written (p.shape.pieces ns), .single ns.name p.field,
    .ofList ((p.shape.slots.map ns.operand).zip encoded)⟩

/-- Rendering a predicate is encoding its operands from first to last, once
    a list of values is known not to be empty. -/
theorem render_eq (encode : Encoder) (ns : Namespace) (p : Predicate) :
    p.render encode ns =
      if p.shape = .oneOf 0 then .error (.noValues p.field)
      else do return p.compiled ns (← p.operands.mapM (encodeOperand encode)) := by
  cases p with
  | present name | absent name =>
    simp [render, shape, operands, compiled, Shape.pieces, Shape.slots, Piece.text, field,
      String.append_assoc]
    rfl
  | oneOf name values =>
    have hslots : (List.range values.length).map (ns.operand ∘ .item) =
        listPlaceholders ns values.length := rfl
    simp [render, shape, operands, compiled, Shape.pieces, Shape.slots, Piece.text, field,
      written_itemPieces, hslots, String.append_assoc]
  | _ =>
    simp [render, shape, operands, compiled, Shape.pieces, Shape.slots, Piece.text, field,
      String.append_assoc]
    rfl

/-- A predicate is rendered when it has a value to compare with and the
    encoder takes all its operands. -/
theorem render_eq_ok_iff {encode : Encoder} {ns : Namespace} {p : Predicate}
    {out : CompiledExpression} :
    p.render encode ns = .ok out ↔
      p.shape ≠ .oneOf 0 ∧
        ∃ encoded, p.operands.map encode = encoded.map .ok ∧ out = p.compiled ns encoded := by
  rw [render_eq, ite_error_eq_ok_iff, bind_eq_ok_iff]
  simp only [mapM_encodeOperand_eq_ok_iff, pure_eq_ok_iff, ne_eq]

end Predicate

/-! ## Section 2: Conditions -/

/-- A condition at a namespace and what it compiles to, apart from the
    nesting limit. -/
inductive Rendered (encode : Encoder) : Namespace → Condition → CompiledExpression → Prop where
  | leaf {ns : Namespace} {p : Predicate} {encoded : List AttributeValue}
      (hcount : p.shape ≠ .oneOf 0) (hops : p.operands.map encode = encoded.map .ok) :
      Rendered encode ns (.leaf p) (p.compiled (ns.child 0) encoded)
  | join {ns : Namespace} {left right : Condition} {op : Connective} {x y : CompiledExpression}
      (hleft : Rendered encode (ns.child 0) left x)
      (hright : Rendered encode (ns.child 1) right y) :
      Rendered encode ns (.join left op right) (.join x op y)
  | negation {ns : Namespace} {inner : Condition} {x : CompiledExpression}
      (hinner : Rendered encode (ns.child 0) inner x) :
      Rendered encode ns (.negation inner) x.negation

namespace Condition

variable {encode : Encoder}

theorem renderBelow_leaf_eq_ok_iff {p : Predicate} {above : Nat} {ns : Namespace}
    {out : CompiledExpression} :
    renderBelow encode above ns (.leaf p) = .ok out ↔
      above ≤ nestingLimit ∧ p.render encode (ns.child 0) = .ok out := by
  rw [renderBelow, ite_error_eq_ok_iff, Nat.not_lt]

theorem renderBelow_join_eq_ok_iff {left right : Condition} {op : Connective} {above : Nat}
    {ns : Namespace} {out : CompiledExpression} :
    renderBelow encode above ns (.join left op right) = .ok out ↔
      above ≤ nestingLimit ∧ ∃ x, renderBelow encode (above + 1) (ns.child 0) left = .ok x ∧
        ∃ y, renderBelow encode (above + 1) (ns.child 1) right = .ok y ∧ out = .join x op y := by
  rw [renderBelow, ite_error_eq_ok_iff, Nat.not_lt]
  simp only [bind_eq_ok_iff, pure_eq_ok_iff]

theorem renderBelow_negation_eq_ok_iff {inner : Condition} {above : Nat} {ns : Namespace}
    {out : CompiledExpression} :
    renderBelow encode above ns (.negation inner) = .ok out ↔
      above ≤ nestingLimit ∧ ∃ x, renderBelow encode (above + 1) (ns.child 0) inner = .ok x ∧
        out = x.negation := by
  rw [renderBelow, ite_error_eq_ok_iff, Nat.not_lt]
  simp only [bind_eq_ok_iff, pure_eq_ok_iff]

/-- A condition is rendered when its parts are and it does not nest deeper
    than the limit, counted from the nodes above it. -/
theorem renderBelow_eq_ok_iff {c : Condition} {above : Nat} {ns : Namespace}
    {out : CompiledExpression} :
    c.renderBelow encode above ns = .ok out ↔
      Rendered encode ns c out ∧ above + c.depth ≤ nestingLimit + 1 := by
  induction c generalizing above ns out with
  | leaf p =>
    rw [renderBelow_leaf_eq_ok_iff, Predicate.render_eq_ok_iff, Expression.depth]
    constructor
    · intro hstep
      obtain ⟨habove, hcount, encoded, hops, rfl⟩ := hstep
      exact ⟨.leaf hcount hops, by omega⟩
    · intro hboth
      obtain ⟨hrendered, hdepth⟩ := hboth
      cases hrendered with
      | leaf hcount hops => exact ⟨by omega, hcount, _, hops, rfl⟩
  | join left op right ihl ihr =>
    rw [renderBelow_join_eq_ok_iff, Expression.depth]
    constructor
    · intro hstep
      obtain ⟨habove, x, hx, y, hy, rfl⟩ := hstep
      obtain ⟨hleft, hdl⟩ := ihl.mp hx
      obtain ⟨hright, hdr⟩ := ihr.mp hy
      exact ⟨.join hleft hright, by omega⟩
    · intro hboth
      obtain ⟨hrendered, hdepth⟩ := hboth
      cases hrendered with
      | join hleft hright =>
        exact ⟨by omega, _, ihl.mpr ⟨hleft, by omega⟩, _, ihr.mpr ⟨hright, by omega⟩, rfl⟩
  | negation inner ih =>
    rw [renderBelow_negation_eq_ok_iff, Expression.depth]
    constructor
    · intro hstep
      obtain ⟨habove, x, hx, rfl⟩ := hstep
      obtain ⟨hinner, hd⟩ := ih.mp hx
      exact ⟨.negation hinner, by omega⟩
    · intro hboth
      obtain ⟨hrendered, hdepth⟩ := hboth
      cases hrendered with
      | negation hinner => exact ⟨by omega, _, ih.mpr ⟨hinner, by omega⟩, rfl⟩

/-- Below the root nothing is above a condition, so its own height decides. -/
theorem render_eq_ok_iff {c : Condition} {ns : Namespace} {out : CompiledExpression} :
    c.render encode ns = .ok out ↔ Rendered encode ns c out ∧ c.depth ≤ nestingLimit + 1 := by
  unfold render
  rw [renderBelow_eq_ok_iff, Nat.zero_add]

end Condition

/-! ## Section 3: The text -/

/-- The text is that of the layout. -/
theorem Rendered.expression_eq {encode : Encoder} {ns : Namespace} {c : Condition}
    {out : CompiledExpression} (h : Rendered encode ns c out) :
    out.expression = written (Layout.pieces (c.layout ns)) := by
  induction h with
  | leaf hcount hops => rfl
  | join hleft hright ihl ihr =>
    rw [Condition.layout_join, Layout.pieces, CompiledExpression.join, ihl, ihr]
    simp [Piece.text, String.append_assoc]
  | negation hinner ih =>
    rw [Condition.layout_negation, Layout.pieces, CompiledExpression.negation, ih]
    simp [Piece.text, String.append_assoc]

/-! ## Section 4: The parts -/

namespace Condition

variable {encode : Encoder}

/-- The text of a connective is put together from those of its operands, each
    rendered on its own at its place. -/
theorem render_join_parts {ns : Namespace} {left right : Condition} {op : Connective}
    {x : CompiledExpression} (h : render encode ns (.join left op right) = .ok x) :
    ∃ y z, left.render encode (ns.child 0) = .ok y ∧ right.render encode (ns.child 1) = .ok z ∧
      x.expression = "(" ++ y.expression ++ ") " ++ op.token ++ " (" ++ z.expression ++ ")" := by
  obtain ⟨hrendered, hdepth⟩ := render_eq_ok_iff.mp h
  -- On its own an operand nests less deep than as a part of the whole.
  rw [Expression.depth] at hdepth
  cases hrendered with
  | @join _ _ _ _ y z hleft hright =>
    have hy : left.render encode (ns.child 0) = .ok y := render_eq_ok_iff.mpr ⟨hleft, by omega⟩
    have hz : right.render encode (ns.child 1) = .ok z := render_eq_ok_iff.mpr ⟨hright, by omega⟩
    exact ⟨y, z, hy, hz, rfl⟩

/-- The same of a negation. -/
theorem render_negation_part {ns : Namespace} {inner : Condition} {x : CompiledExpression}
    (h : render encode ns (.negation inner) = .ok x) :
    ∃ y, inner.render encode (ns.child 0) = .ok y ∧
      x.expression = "NOT (" ++ y.expression ++ ")" := by
  obtain ⟨hrendered, hdepth⟩ := render_eq_ok_iff.mp h
  rw [Expression.depth] at hdepth
  cases hrendered with
  | @negation _ _ y hinner => exact ⟨y, render_eq_ok_iff.mpr ⟨hinner, by omega⟩, rfl⟩

end Condition
end CondExpr
