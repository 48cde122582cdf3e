import CondExpr.Document.Writer
import CondExpr.Json.Number
import CondExpr.Proofs.Grammar

/-! # Conditions and their documents

  A condition is *expressible* when a document can be written for it: all
  its attributes have names, no operand is a date and no list of values is
  empty. The grammar holds just the expressible conditions, and of each one
  document, up to the spelling of its numbers. So every expressible
  condition within the nesting limit is read back from what is written for
  it, and documents that are read as one condition are the same when their
  numbers are rounded.
-/

namespace CondExpr

/-! ## Section 1: Expressible conditions -/

/-- A document can be written for the predicate. -/
structure Predicate.Expressible (p : Predicate) : Prop where
  named : p.field ≠ ""
  undated : ∀ t, Scalar.date t ∉ p.operands
  listed : p.shape ≠ .oneOf 0

/-- A document can be written for the condition. -/
def Condition.Expressible (c : Condition) : Prop := ∀ p ∈ c.leaves, p.Expressible

/-- The number that an operand is. -/
def Scalar.number? : Scalar → Option Binary64
  | .number x => some x
  | _ => none

/-- The numbers among the operands of a predicate. -/
def Predicate.numbers (p : Predicate) : List Binary64 := p.operands.filterMap Scalar.number?

/-- The numbers among all operands, leaf by leaf. -/
def Condition.numbers (c : Condition) : List Binary64 := c.leaves.flatMap Predicate.numbers

namespace Document

/-! ## Section 2: What a document denotes -/

section Operands

variable {v : Json} {value : Scalar}

theorem Operand.ne_date (h : Operand v value) (t : Instant) : Scalar.date t ≠ value := by
  cases h <;> simp

theorem Operand.rounded_eq (h : Operand v value) : v.rounded = value.document := by
  cases h with
  | text s => rfl
  | number hv => exact Json.rounded_of_number? hv
  | boolean b => rfl

theorem Operand.numbers_eq (h : Operand v value) : v.numbers = value.number?.toList := by
  cases h with
  | text s => rfl
  | number hv => exact Json.numbers_of_number? hv
  | boolean b => rfl

/-- Items that are written for operands, one for one. -/
theorem items_eq {items : List Json} {values : List Scalar}
    (h : List.Forall₂ Operand items values) :
    (∀ t, Scalar.date t ∉ values) ∧ Json.roundedItems items = values.map Scalar.document ∧
      Json.numbersOfItems items = values.filterMap Scalar.number? := by
  induction h with
  | nil => exact ⟨fun _ => List.not_mem_nil, rfl, rfl⟩
  | @cons item value items values hitem _ ih =>
    obtain ⟨hundated, hrounded, hnumbers⟩ := ih
    refine ⟨?_, ?_, ?_⟩
    · intro t ht
      rcases List.mem_cons.mp ht with heq | ht
      · exact hitem.ne_date t heq
      · exact hundated t ht
    · rw [Json.roundedItems, hrounded, hitem.rounded_eq, List.map_cons]
    · rw [Json.numbersOfItems, hnumbers, hitem.numbers_eq, List.filterMap_cons]
      cases value.number? <;> rfl

end Operands

section Tests

variable {field : String} {form : PredicateForm} {operands : List Json} {p : Predicate}

theorem Test.field_eq (h : Test field form operands p) : p.field = field := by
  cases h <;> rfl

theorem Test.operatorToken_eq (h : Test field form operands p) : p.operatorToken = form.token := by
  cases h <;> rfl

/-- The operands that are written are those of the predicate: no date, and
    all numbers, however they are spelled. -/
theorem Test.operands_eq (h : Test field form operands p) :
    (∀ t, Scalar.date t ∉ p.operands) ∧ Json.roundedItems operands = p.operandDocuments ∧
      Json.numbersOfItems operands = p.numbers := by
  cases h with
  | compare hvalue => exact items_eq (.cons hvalue .nil)
  | between hlow hhigh => exact items_eq (.cons hlow (.cons hhigh .nil))
  | beginsWith start => exact items_eq (.cons (.text start) .nil)
  | contains hvalue => exact items_eq (.cons hvalue .nil)
  | present => exact items_eq .nil
  | absent => exact items_eq .nil
  | @size op v bound hbound =>
    -- The comparator is written in front, but is no operand.
    obtain ⟨hundated, hrounded, hnumbers⟩ := items_eq (.cons (.number hbound) .nil)
    refine ⟨hundated, ?_, hnumbers⟩
    show Json.text op.token :: Json.roundedItems [v] = _
    rw [hrounded]
    rfl
  | @oneOf items values hitems hvalues =>
    -- The values are written inside one item.
    obtain ⟨hundated, hrounded, hnumbers⟩ := items_eq hvalues
    refine ⟨hundated, ?_, ?_⟩
    · show [Json.array (Json.roundedItems items)] = _
      rw [hrounded]
      rfl
    · show Json.numbersOfItems items ++ [] = _
      rw [hnumbers, List.append_nil]
      rfl

theorem Test.expressible (hfield : field ≠ "") (h : Test field form operands p) :
    p.Expressible := by
  refine ⟨?_, h.operands_eq.1, ?_⟩
  · rw [h.field_eq]
    exact hfield
  · cases h with
    | oneOf hitems hvalues =>
      have hlen := hvalues.length_eq
      have hpos : 0 < _ := List.length_pos_iff.mpr hitems
      simp only [Predicate.shape, ne_eq, Shape.oneOf.injEq]
      omega
    | _ => simp [Predicate.shape]

end Tests

namespace Denotes

variable {v : Json} {c : Condition}

/-- Only expressible conditions have documents. -/
theorem expressible (h : Denotes v c) : c.Expressible := by
  induction h with
  | leaf hfield htest =>
    intro q hq
    rw [Expression.leaves, List.mem_singleton] at hq
    rw [hq]
    exact htest.expressible hfield
  | join hleft hright ihl ihr =>
    intro q hq
    rcases List.mem_append.mp hq with hq | hq
    · exact ihl q hq
    · exact ihr q hq
  | negation hinner ih => exact ih

/-- A document of a condition is what is written for the condition, up to
    the spelling of numbers. -/
theorem rounded_eq (h : Denotes v c) : v.rounded = c.document := by
  induction h with
  | @leaf field form operands p hfield htest =>
    obtain ⟨_, hrounded, _⟩ := htest.operands_eq
    show Json.array (.text field :: .text form.token :: Json.roundedItems operands) = _
    rw [hrounded, ← htest.operatorToken_eq, ← htest.field_eq]
    rfl
  | @join v w left right op hleft hright ihl ihr =>
    show Json.array [v.rounded, .text op.token, w.rounded] = _
    rw [ihl, ihr]
    rfl
  | @negation v inner hinner ih =>
    show Json.object [("NOT", v.rounded)] = _
    rw [ih]
    rfl

/-- The numbers in a document are those of its condition, in their order. -/
theorem numbers_eq (h : Denotes v c) : v.numbers = c.numbers := by
  unfold Condition.numbers
  induction h with
  | @leaf field form operands p hfield htest =>
    obtain ⟨_, _, hnumbers⟩ := htest.operands_eq
    show Json.numbersOfItems operands = p.numbers ++ []
    rw [hnumbers, List.append_nil]
  | @join v w left right op hleft hright ihl ihr =>
    show v.numbers ++ ([] ++ (w.numbers ++ [])) = _
    rw [ihl, ihr, List.nil_append, List.append_nil, Expression.leaves, List.flatMap_append]
  | @negation v inner hinner ih =>
    show v.numbers ++ [] = _
    rw [ih, List.append_nil, Expression.leaves]

end Denotes

/-! ## Section 3: What is written denotes -/

theorem operand_document {value : Scalar} (h : ∀ t, Scalar.date t ≠ value) :
    Operand value.document value := by
  cases value with
  | text s => exact .text s
  | number x => exact .number rfl
  | boolean b => exact .boolean b
  | date t => exact absurd rfl (h t)

theorem operands_document {values : List Scalar} (h : ∀ t, Scalar.date t ∉ values) :
    List.Forall₂ Operand (values.map Scalar.document) values := by
  rw [List.forall₂_map_left_iff, List.forall₂_same]
  intro value hvalue
  refine operand_document fun t heq => h t ?_
  rw [heq]
  exact hvalue

/-- The operator and the operands that are written for a predicate. -/
theorem test_document {p : Predicate} (h : p.Expressible) :
    ∃ form, p.operatorToken = form.token ∧ Test p.field form p.operandDocuments p := by
  have hoperands := operands_document h.undated
  cases p with
  | compare field op value =>
    obtain ⟨hvalue, _⟩ := List.forall₂_cons.mp hoperands
    exact ⟨.compare op, rfl, .compare hvalue⟩
  | between field low high =>
    obtain ⟨hlow, hrest⟩ := List.forall₂_cons.mp hoperands
    obtain ⟨hhigh, _⟩ := List.forall₂_cons.mp hrest
    exact ⟨.between, rfl, .between hlow hhigh⟩
  | beginsWith field start => exact ⟨.beginsWith, rfl, .beginsWith start⟩
  | contains field value =>
    obtain ⟨hvalue, _⟩ := List.forall₂_cons.mp hoperands
    exact ⟨.contains, rfl, .contains hvalue⟩
  | present field => exact ⟨.present, rfl, .present⟩
  | absent field => exact ⟨.absent, rfl, .absent⟩
  | size field op bound => exact ⟨.size, rfl, .size rfl⟩
  | oneOf field values =>
    refine ⟨.oneOf, rfl, .oneOf ?_ hoperands⟩
    intro hnil
    obtain rfl : values = [] := List.map_eq_nil_iff.mp hnil
    exact h.listed rfl

/-- What is written for an expressible condition is a document of it. -/
theorem denotes_document {c : Condition} (h : c.Expressible) : Denotes c.document c := by
  induction c with
  | leaf p =>
    have hp : p.Expressible := h p List.mem_cons_self
    obtain ⟨form, htoken, htest⟩ := test_document hp
    show Denotes (.array (.text p.field :: .text p.operatorToken :: p.operandDocuments)) _
    rw [htoken]
    exact .leaf hp.named htest
  | join left op right ihl ihr =>
    exact .join (ihl fun p hp => h p (List.mem_append_left _ hp))
      (ihr fun p hp => h p (List.mem_append_right _ hp))
  | negation inner ih => exact .negation (ih h)

/-! ## Section 4: Reading and writing -/

/-- What the reader gives back is expressible and within the limit, and has
    the numbers of the document. -/
theorem expressible_of_read {v : Json} {c : Condition} (h : read v = .ok c) :
    c.Expressible ∧ c.depth ≤ nestingLimit + 1 ∧ v.numbers = c.numbers := by
  obtain ⟨hdenotes, hdepth⟩ := read_eq_ok_iff.mp h
  exact ⟨hdenotes.expressible, hdepth, hdenotes.numbers_eq⟩

/-- **The reader accepts exactly the grammar.** A value is read as a
    condition just when it is a document of it and no node has more
    connectives and negations above it than the limit allows. Every
    expressible condition with finite numbers and within the limit is read
    from what is written for it, where again all numbers are finite. Two
    documents that are read as one condition differ at most in whether
    their numbers are written as integers or as doubles. -/
theorem read_exact :
    (∀ v c, read v = .ok c ↔
      Denotes v c ∧ ∀ path d, c.nodeAt? path = some d → path.length ≤ nestingLimit) ∧
    (∀ c : Condition, c.Expressible → (∀ x ∈ c.numbers, x.isFinite = true) →
      c.depth ≤ nestingLimit + 1 →
      Denotes c.document c ∧ (∀ x ∈ c.document.numbers, x.isFinite = true) ∧
        read c.document = .ok c) ∧
    ∀ v w c, read v = .ok c → read w = .ok c → v.rounded = w.rounded := by
  refine ⟨?_, ?_, ?_⟩
  · intro v c
    rw [read_eq_ok_iff, Expression.depth_le_iff]
    simp only [Nat.lt_succ_iff]
  · intro c hexpressible hfinite hdepth
    have hdenotes := denotes_document hexpressible
    refine ⟨hdenotes, ?_, read_eq_ok_iff.mpr ⟨hdenotes, hdepth⟩⟩
    rw [hdenotes.numbers_eq]
    exact hfinite
  · intro v w c hv hw
    rw [(read_eq_ok_iff.mp hv).1.rounded_eq, (read_eq_ok_iff.mp hw).1.rounded_eq]

/-- A list with an integer in it is read, written with a double in its
    place, and read again. -/
theorem read_exact_integer_in_list :
    ∃ c, read (.object [("NOT", .array [.text "age", .text "in",
        .array [.integer 1, .text "x"]])]) = .ok c ∧
      c.document = .object [("NOT", .array [.text "age", .text "in",
        .array [.real (.ofInt 1), .text "x"]])] ∧
      Denotes c.document c ∧ read c.document = .ok c ∧
      Json.rounded (.object [("NOT", .array [.text "age", .text "in",
        .array [.integer 1, .text "x"]])]) = c.document.rounded := by
  have h : read (.object [("NOT", .array [.text "age", .text "in",
      .array [.integer 1, .text "x"]])]) =
    .ok (.negation (.leaf (.oneOf "age" [.number (.ofInt 1), .text "x"]))) := rfl
  obtain ⟨hexpressible, hdepth, _⟩ := expressible_of_read h
  obtain ⟨_, hwritten, hspelling⟩ := read_exact
  obtain ⟨hdenotes, _, hread⟩ := hwritten _ hexpressible (by decide +kernel) hdepth
  exact ⟨_, h, rfl, hdenotes, hread, hspelling _ _ _ h hread⟩

end Document
end CondExpr
