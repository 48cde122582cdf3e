import CondExpr.Document.Reader
import CondExpr.Proofs.Layout
import CondExpr.Proofs.Rendered
import Mathlib.Data.List.Forall2

/-! # The grammar of condition documents

  What it means that a JSON value is a document of a condition, without
  reading it: `Denotes` has one constructor for every form of node, and
  `Test` one for every operator with the number and the kinds of operands
  that it takes. The reader accepts exactly the documents of the grammar,
  and gives back the condition that they denote, as long as they do not
  nest too deep.
-/

namespace CondExpr

/-! ## Section 1: Tokens -/

/-- If every token is found to be its own, then no text is found to be a
    token but that token. -/
private theorem find?_token_eq_some_iff {α : Type} {all : List α} {token : α → String}
    (hown : ∀ a, all.find? (fun b => token b = token a) = some a) {text : String} {a : α} :
    all.find? (fun b => token b = text) = some a ↔ text = token a := by
  constructor
  · intro h
    have hfound := List.find?_some h
    exact (of_decide_eq_true hfound).symm
  · intro h
    rw [h, hown]

theorem Comparator.ofToken?_eq_some_iff {text : String} {op : Comparator} :
    ofToken? text = some op ↔ text = op.token :=
  find?_token_eq_some_iff ofToken?_token

theorem Connective.ofToken?_eq_some_iff {text : String} {op : Connective} :
    ofToken? text = some op ↔ text = op.token :=
  find?_token_eq_some_iff ofToken?_token

@[simp] theorem PredicateForm.ofToken?_token (form : PredicateForm) :
    ofToken? form.token = some form := by
  cases form with
  | compare op => cases op <;> decide
  | _ => decide

theorem PredicateForm.ofToken?_eq_some_iff {text : String} {form : PredicateForm} :
    ofToken? text = some form ↔ text = form.token :=
  find?_token_eq_some_iff ofToken?_token

namespace Document

/-! ## Section 2: The grammar -/

/-- The value is written for the operand. -/
inductive Operand : Json → Scalar → Prop where
  | text (s : String) : Operand (.text s) (.text s)
  | number {v : Json} {x : Binary64} (hv : v.number? = some x) : Operand v (.number x)
  | boolean (b : Bool) : Operand (.boolean b) (.boolean b)

/-- The operator and its operands are written for the predicate. -/
inductive Test (field : String) : PredicateForm → List Json → Predicate → Prop where
  | compare {op : Comparator} {v : Json} {value : Scalar} (hvalue : Operand v value) :
      Test field (.compare op) [v] (.compare field op value)
  | between {v w : Json} {low high : Scalar} (hlow : Operand v low) (hhigh : Operand w high) :
      Test field .between [v, w] (.between field low high)
  | beginsWith (start : String) :
      Test field .beginsWith [.text start] (.beginsWith field start)
  | contains {v : Json} {value : Scalar} (hvalue : Operand v value) :
      Test field .contains [v] (.contains field value)
  | present : Test field .present [] (.present field)
  | absent : Test field .absent [] (.absent field)
  | size {op : Comparator} {v : Json} {bound : Binary64} (hbound : v.number? = some bound) :
      Test field .size [.text op.token, v] (.size field op bound)
  | oneOf {items : List Json} {values : List Scalar} (hitems : items ≠ [])
      (hvalues : List.Forall₂ Operand items values) :
      Test field .oneOf [.array items] (.oneOf field values)

/-- The value is a document of the condition. -/
inductive Denotes : Json → Condition → Prop where
  | leaf {field : String} {form : PredicateForm} {operands : List Json} {p : Predicate}
      (hfield : field ≠ "") (htest : Test field form operands p) :
      Denotes (.array (.text field :: .text form.token :: operands)) (.leaf p)
  | join {v w : Json} {left right : Condition} {op : Connective} (hleft : Denotes v left)
      (hright : Denotes w right) :
      Denotes (.array [v, .text op.token, w]) (.join left op right)
  | negation {v : Json} {inner : Condition} (hinner : Denotes v inner) :
      Denotes (.object [("NOT", v)]) (.negation inner)

/-- A document is told from an attribute name by its kind. -/
theorem Denotes.isNode {v : Json} {c : Condition} (h : Denotes v c) : isNode v = true := by
  cases h <;> rfl

/-! ## Section 3: Predicates are read by the grammar -/

section Predicates

variable {field : String} {form : PredicateForm} {v : Json} {operands items : List Json}
  {p : Predicate}

theorem readScalar_eq_ok_iff {value : Scalar} :
    readScalar field v = .ok value ↔ Operand v value := by
  constructor
  · intro h
    cases v with
    | text s => cases h; exact .text s
    | boolean b => cases h; exact .boolean b
    | integer n => cases h; exact .number rfl
    | real x => cases h; exact .number rfl
    | null => cases h
    | array items => cases h
    | object members => cases h
  · intro h
    cases h with
    | text s => rfl
    | boolean b => rfl
    | number hv => cases v <;> cases hv <;> rfl

theorem mapM_readScalar_eq_ok_iff {values : List Scalar} :
    items.mapM (readScalar field) = .ok values ↔ List.Forall₂ Operand items values := by
  rw [mapM_eq_ok_iff, ← List.forall₂_eq_eq_eq, List.forall₂_map_left_iff,
    List.forall₂_map_right_iff]
  simp only [readScalar_eq_ok_iff]

theorem readComparator_eq_ok_iff {op : Comparator} :
    readComparator field v = .ok op ↔ v = .text op.token := by
  constructor
  · intro h
    unfold readComparator at h
    split at h
    · split at h
      · cases h
        rename_i hop
        rw [Comparator.ofToken?_eq_some_iff.mp hop]
      · cases h
    · cases h
  · intro h
    rw [h, readComparator, Comparator.ofToken?_token]

theorem readBound_eq_ok_iff {bound : Binary64} :
    readBound field v = .ok bound ↔ v.number? = some bound := by
  unfold readBound
  cases v.number? <;> simp

theorem readOperands_eq_ok_iff :
    readOperands field form operands = .ok p ↔ Test field form operands p := by
  constructor
  · intro h
    unfold readOperands at h
    split at h
    · obtain ⟨value, hvalue, hp⟩ := bind_eq_ok_iff.mp h
      rw [pure_eq_ok_iff.mp hp]
      exact .compare (readScalar_eq_ok_iff.mp hvalue)
    · obtain ⟨low, hlow, h⟩ := bind_eq_ok_iff.mp h
      obtain ⟨high, hhigh, hp⟩ := bind_eq_ok_iff.mp h
      rw [pure_eq_ok_iff.mp hp]
      exact .between (readScalar_eq_ok_iff.mp hlow) (readScalar_eq_ok_iff.mp hhigh)
    · cases h
      exact .beginsWith _
    · cases h
    · obtain ⟨value, hvalue, hp⟩ := bind_eq_ok_iff.mp h
      rw [pure_eq_ok_iff.mp hp]
      exact .contains (readScalar_eq_ok_iff.mp hvalue)
    · cases h
      exact .present
    · cases h
      exact .absent
    · obtain ⟨op, hop, h⟩ := bind_eq_ok_iff.mp h
      obtain ⟨bound, hbound, hp⟩ := bind_eq_ok_iff.mp h
      rw [pure_eq_ok_iff.mp hp, readComparator_eq_ok_iff.mp hop]
      exact .size (readBound_eq_ok_iff.mp hbound)
    · cases h
    · rename_i items hitems
      obtain ⟨values, hvalues, hp⟩ := bind_eq_ok_iff.mp h
      rw [pure_eq_ok_iff.mp hp]
      exact .oneOf hitems (mapM_readScalar_eq_ok_iff.mp hvalues)
    · cases h
    · cases h
  · intro h
    cases h with
    | compare hvalue =>
      rw [readOperands, readScalar_eq_ok_iff.mpr hvalue]
      rfl
    | between hlow hhigh =>
      rw [readOperands, readScalar_eq_ok_iff.mpr hlow, readScalar_eq_ok_iff.mpr hhigh]
      rfl
    | beginsWith start => rfl
    | contains hvalue =>
      rw [readOperands, readScalar_eq_ok_iff.mpr hvalue]
      rfl
    | present => rfl
    | absent => rfl
    | size hbound =>
      rw [readOperands, readComparator_eq_ok_iff.mpr rfl, readBound_eq_ok_iff.mpr hbound]
      rfl
    | oneOf hitems hvalues =>
      rw [readOperands, mapM_readScalar_eq_ok_iff.mpr hvalues]
      · rfl
      · exact hitems

theorem readTest_eq_ok_iff : readTest field items = .ok p ↔
    ∃ form operands, items = .text form.token :: operands ∧ Test field form operands p := by
  constructor
  · intro h
    unfold readTest at h
    split at h
    · cases h
    · split at h
      · rename_i hform
        rw [PredicateForm.ofToken?_eq_some_iff.mp hform]
        exact ⟨_, _, rfl, readOperands_eq_ok_iff.mp h⟩
      · cases h
    · cases h
  · intro h
    obtain ⟨form, operands, rfl, htest⟩ := h
    rw [readTest, PredicateForm.ofToken?_token]
    exact readOperands_eq_ok_iff.mpr htest

/-- The predicates that are read are the leaves of the grammar. -/
theorem readPredicate_eq_ok_iff :
    readPredicate items = .ok p ↔ Denotes (.array items) (.leaf p) := by
  constructor
  · intro h
    unfold readPredicate at h
    split at h
    · cases h
    · rw [ite_error_eq_ok_iff] at h
      obtain ⟨hfield, htest⟩ := h
      obtain ⟨form, operands, rfl, hoperands⟩ := readTest_eq_ok_iff.mp htest
      exact .leaf hfield hoperands
    · cases h
  · intro h
    cases h with
    | leaf hfield htest =>
      rw [readPredicate, if_neg hfield]
      exact readTest_eq_ok_iff.mpr ⟨_, _, rfl, htest⟩

end Predicates

/-! ## Section 4: Conditions are read by the grammar -/

theorem readConnective_eq_ok_iff {v : Json} {op : Connective} :
    readConnective v = .ok op ↔ v = .text op.token := by
  constructor
  · intro h
    unfold readConnective at h
    split at h
    · split at h
      · cases h
        rename_i hop
        rw [Connective.ofToken?_eq_some_iff.mp hop]
      · cases h
    · cases h
  · intro h
    rw [h, readConnective, Connective.ofToken?_token]

section Nodes

variable {room : Nat} {c : Condition}

theorem readNode_object_eq_ok_iff {members : List (String × Json)} :
    readNode (room + 1) (.object members) = .ok c ↔
      ∃ v, members = [("NOT", v)] ∧ ∃ inner, readNode room v = .ok inner ∧ c = .negation inner := by
  constructor
  · intro h
    match members with
    | [] => cases h
    | [(key, v)] =>
      rw [readNode] at h
      split at h
      · rename_i hkey
        obtain ⟨inner, hinner, hc⟩ := bind_eq_ok_iff.mp h
        exact ⟨v, by rw [hkey], inner, hinner, pure_eq_ok_iff.mp hc⟩
      · cases h
    | _ :: _ :: _ => cases h
  · intro h
    obtain ⟨v, rfl, inner, hinner, rfl⟩ := h
    rw [readNode, if_pos rfl, hinner]
    rfl

theorem readNode_join_eq_ok_iff {v op w : Json} (hnode : isNode v = true) :
    readNode (room + 1) (.array [v, op, w]) = .ok c ↔
      ∃ connective, op = .text connective.token ∧ ∃ left, readNode room v = .ok left ∧
        ∃ right, readNode room w = .ok right ∧ c = .join left connective right := by
  rw [readNode, if_pos hnode]
  simp only [bind_eq_ok_iff, pure_eq_ok_iff, readConnective_eq_ok_iff]

/-- An array that is no connective is read as a predicate. -/
theorem readNode_leaf_eq_ok_iff {items : List Json}
    (hleaf : ∀ v op w, items = [v, op, w] → isNode v = false) :
    readNode (room + 1) (.array items) = .ok c ↔
      ∃ p, readPredicate items = .ok p ∧ c = .leaf p := by
  by_cases hthree : ∃ v op w, items = [v, op, w]
  · obtain ⟨v, op, w, rfl⟩ := hthree
    rw [readNode, hleaf v op w rfl, if_neg Bool.false_ne_true, bind_eq_ok_iff]
    simp only [pure_eq_ok_iff]
  · rw [readNode, bind_eq_ok_iff]
    · simp only [pure_eq_ok_iff]
    · intro v op w hitems
      exact hthree ⟨v, op, w, hitems⟩

/-- With room for a number of levels just the documents are read whose
    conditions are not higher. -/
theorem readNode_eq_ok_iff {v : Json} :
    readNode room v = .ok c ↔ Denotes v c ∧ c.depth ≤ room := by
  induction room generalizing v c with
  | zero =>
    constructor
    · intro h
      cases h
    · intro h
      obtain ⟨_, hdepth⟩ := h
      have hpos : 0 < c.depth := c.depth_pos
      omega
  | succ room ih =>
    constructor
    · intro h
      cases v with
      | object members =>
        obtain ⟨v, rfl, inner, hinner, rfl⟩ := readNode_object_eq_ok_iff.mp h
        obtain ⟨hdenotes, hdepth⟩ := ih.mp hinner
        rw [Expression.depth]
        exact ⟨.negation hdenotes, by omega⟩
      | array items =>
        by_cases hjoin : ∃ v op w, items = [v, op, w] ∧ isNode v = true
        · obtain ⟨v, op, w, rfl, hnode⟩ := hjoin
          obtain ⟨op, rfl, left, hleft, right, hright, rfl⟩ :=
            (readNode_join_eq_ok_iff hnode).mp h
          obtain ⟨hdleft, hdepthl⟩ := ih.mp hleft
          obtain ⟨hdright, hdepthr⟩ := ih.mp hright
          rw [Expression.depth]
          exact ⟨.join hdleft hdright, by omega⟩
        · have hleaf : ∀ v op w, items = [v, op, w] → isNode v = false := by
            intro v op w hitems
            rw [← Bool.not_eq_true]
            exact fun hnode => hjoin ⟨v, op, w, hitems, hnode⟩
          obtain ⟨p, hp, rfl⟩ := (readNode_leaf_eq_ok_iff hleaf).mp h
          rw [Expression.depth]
          exact ⟨readPredicate_eq_ok_iff.mp hp, by omega⟩
      | null => cases h
      | boolean b => cases h
      | integer n => cases h
      | real x => cases h
      | text s => cases h
    · intro h
      obtain ⟨hdenotes, hdepth⟩ := h
      cases hdenotes with
      | leaf hfield htest =>
        refine (readNode_leaf_eq_ok_iff ?_).mpr
          ⟨_, readPredicate_eq_ok_iff.mpr (.leaf hfield htest), rfl⟩
        intro v op w hitems
        obtain ⟨rfl, _⟩ := List.cons.inj hitems
        rfl
      | join hleft hright =>
        rw [Expression.depth] at hdepth
        exact (readNode_join_eq_ok_iff hleft.isNode).mpr
          ⟨_, rfl, _, ih.mpr ⟨hleft, by omega⟩, _, ih.mpr ⟨hright, by omega⟩, rfl⟩
      | negation hinner =>
        rw [Expression.depth] at hdepth
        exact readNode_object_eq_ok_iff.mpr ⟨_, rfl, _, ih.mpr ⟨hinner, by omega⟩, rfl⟩

/-- The documents that are read are those of the grammar that keep to the
    nesting limit. -/
theorem read_eq_ok_iff {v : Json} : read v = .ok c ↔ Denotes v c ∧ c.depth ≤ nestingLimit + 1 :=
  readNode_eq_ok_iff

end Nodes

end Document
end CondExpr
