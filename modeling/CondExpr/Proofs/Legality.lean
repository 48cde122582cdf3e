import CondExpr.Proofs.Coverage
import CondExpr.Proofs.Fault
import CondExpr.Proofs.Roundtrip

/-! # Conditions that come from documents

  The reader and the renderer both watch over the nesting limit and over
  empty lists of values, each in its own way. They agree: what the reader
  lets through is expressible and within the limit, and then the renderer
  can only be stopped by an operand that the encoder refuses. The standard
  encoder takes all operands that a document can hold, other than numbers
  beyond its range. So with finite numbers nothing goes wrong between a
  document and its compiled expression but faults of the document itself and
  a number out of range; and of several such numbers the first is blamed.
-/

namespace CondExpr

/-! ## Section 1: Faults of decoded documents -/

/-- The error is about what a decoded document says, and neither about the
    text it was decoded from nor about filters. -/
def DocumentError.isContent : DocumentError → Bool
  | .unsupportedOperator _ | .shape _ | .operand .. | .arity .. => true
  | .json _ | .yaml | .notAllowed _ => false

namespace Document

section Content

variable {α β : Type}

/-- A run fails only because of what a document says. -/
def Content (run : Except DocumentError α) : Prop := ∀ e, run = .error e → e.isContent = true

theorem content_ok (a : α) : Content (.ok a) := by
  intro e h
  cases h

theorem content_error {e : DocumentError} (h : e.isContent = true) :
    Content (.error e : Except DocumentError α) := by
  intro e' heq
  cases heq
  exact h

theorem Content.bind {run : Except DocumentError α} {next : α → Except DocumentError β}
    (hrun : Content run) (hnext : ∀ a, Content (next a)) : Content (run >>= next) := by
  intro e h
  cases run with
  | error e' =>
    obtain rfl : e' = e := Except.error.inj h
    exact hrun e' rfl
  | ok a => exact hnext a e h

theorem content_mapM {f : α → Except DocumentError β} (h : ∀ a, Content (f a)) (xs : List α) :
    Content (xs.mapM f) := by
  induction xs with
  | nil => exact content_ok []
  | cons x xs ih =>
    rw [List.mapM_cons]
    exact (h x).bind fun y => ih.bind fun ys => content_ok (y :: ys)

end Content

theorem content_readScalar (field : String) (v : Json) : Content (readScalar field v) := by
  cases v with
  | text s => exact content_ok _
  | boolean b => exact content_ok _
  | integer n => exact content_ok _
  | real x => exact content_ok _
  | _ => exact content_error rfl

theorem content_readComparator (field : String) (v : Json) :
    Content (readComparator field v) := by
  unfold readComparator
  split
  · split
    · exact content_ok _
    · exact content_error rfl
  · exact content_error rfl

theorem content_readBound (field : String) (v : Json) : Content (readBound field v) := by
  unfold readBound
  split
  · exact content_ok _
  · exact content_error rfl

theorem content_readOperands (field : String) (form : PredicateForm) (operands : List Json) :
    Content (readOperands field form operands) := by
  have hscalar := content_readScalar field
  unfold readOperands
  split
  · exact (hscalar _).bind fun value => content_ok _
  · exact (hscalar _).bind fun low => (hscalar _).bind fun high => content_ok _
  · exact content_ok _
  · exact content_error rfl
  · exact (hscalar _).bind fun value => content_ok _
  · exact content_ok _
  · exact content_ok _
  · exact (content_readComparator field _).bind fun op =>
      (content_readBound field _).bind fun bound => content_ok _
  · exact content_error rfl
  · exact (content_mapM hscalar _).bind fun values => content_ok _
  · exact content_error rfl
  · exact content_error rfl

theorem content_readTest (field : String) (items : List Json) :
    Content (readTest field items) := by
  unfold readTest
  split
  · exact content_error rfl
  · split
    · exact content_readOperands field _ _
    · exact content_error rfl
  · exact content_error rfl

theorem content_readPredicate (items : List Json) : Content (readPredicate items) := by
  unfold readPredicate
  split
  · exact content_error rfl
  · split
    · exact content_error rfl
    · exact content_readTest _ _
  · exact content_error rfl

theorem content_readConnective (v : Json) : Content (readConnective v) := by
  unfold readConnective
  split
  · split
    · exact content_ok _
    · exact content_error rfl
  · exact content_error rfl

theorem content_readNode (room : Nat) (v : Json) : Content (readNode room v) := by
  induction room generalizing v with
  | zero => exact content_error rfl
  | succ room ih =>
    have hleaf (items : List Json) :
        Content (readPredicate items >>= fun p => pure (Expression.leaf p)) :=
      (content_readPredicate items).bind fun p => content_ok (Expression.leaf p)
    unfold readNode
    split
    · split
      · exact (ih _).bind fun inner => content_ok _
      · exact content_error rfl
    · exact content_error rfl
    · split
      · exact (content_readConnective _).bind fun op =>
          (ih _).bind fun left => (ih _).bind fun right => content_ok _
      · exact hleaf _
    · exact hleaf _
    · exact content_error rfl

/-- A decoded document is refused only because of what it says. -/
theorem isContent_of_read {v : Json} {e : DocumentError} (h : read v = .error e) :
    e.isContent = true :=
  content_readNode _ v e h

end Document

/-! ## Section 2: The standard encoder -/

namespace Encoder

/-- Not zero, and of a magnitude that is too large or too small. -/
def outOfRange : Binary64 → Bool
  | .finite _ rank => rank.val ≠ 0 ∧ (greatestRank ≤ rank.val ∨ rank.val < leastRank)
  | _ => false

/-- Of the finite numbers just those out of range are refused. -/
theorem fault?_encodeNumber {x : Binary64} (hfinite : x.isFinite = true) :
    fault? (encodeNumber x) = if outOfRange x then some (.numberOutOfRange x) else none := by
  cases x with
  | nan => cases hfinite
  | infinite negative => cases hfinite
  | finite negative rank =>
    unfold encodeNumber outOfRange
    by_cases hzero : rank.val = 0
    · simp [hzero]
    · by_cases hrange : greatestRank ≤ rank.val ∨ rank.val < leastRank
      · simp [hzero, hrange]
      · simp [hzero, hrange]

/-- Of operands that are no dates only a number can be refused. -/
theorem fault?_standard {value : Scalar} (hundated : ∀ t, Scalar.date t ≠ value)
    (hfinite : ∀ x, value.number? = some x → x.isFinite = true) :
    fault? (encodeOperand standard value) =
      (value.number?.filter outOfRange).map fun x => .encoding (.numberOutOfRange x) := by
  unfold encodeOperand
  rw [fault?_mapError]
  cases value with
  | text s => rfl
  | boolean b => rfl
  | date t => exact absurd rfl (hundated t)
  | number x =>
    show (fault? (encodeNumber x)).map _ = ((some x).filter outOfRange).map _
    rw [fault?_encodeNumber (hfinite x rfl), Option.filter_some]
    cases outOfRange x <;> rfl

/-- Of a list of operands the first number out of range is refused. -/
theorem findSome?_fault?_standard {operands : List Scalar}
    (hundated : ∀ t, Scalar.date t ∉ operands)
    (hfinite : ∀ x ∈ operands.filterMap Scalar.number?, x.isFinite = true) :
    (operands.findSome? fun operand => fault? (encodeOperand standard operand)) =
      ((operands.filterMap Scalar.number?).find? outOfRange).map fun x =>
        .encoding (.numberOutOfRange x) := by
  induction operands with
  | nil => rfl
  | cons value rest ih =>
    have hhead : fault? (encodeOperand standard value) =
        (value.number?.filter outOfRange).map fun x => .encoding (.numberOutOfRange x) := by
      apply fault?_standard
      · intro t heq
        exact hundated t (heq ▸ List.mem_cons_self)
      · intro x hx
        exact hfinite x (List.mem_filterMap.mpr ⟨value, List.mem_cons_self, hx⟩)
    have hrest := ih (fun t ht => hundated t (List.mem_cons_of_mem _ ht)) fun x hx => by
      obtain ⟨operand, hoperand, hnumber⟩ := List.mem_filterMap.mp hx
      exact hfinite x (List.mem_filterMap.mpr ⟨operand, List.mem_cons_of_mem _ hoperand, hnumber⟩)
    rw [List.findSome?_cons, hhead, hrest, List.filterMap_cons]
    cases value.number? with
    | none => rfl
    | some x =>
      rw [Option.filter_some, List.find?_cons]
      cases outOfRange x <;> rfl

end Encoder

namespace Condition

/-- Where the standard encoder is used, an expressible condition within the
    limit can only be refused because of a number: the first one that is out
    of range, leaf by leaf and operand by operand. -/
theorem fault?_render_standard {c : Condition} (hexpressible : c.Expressible)
    (hfinite : ∀ x ∈ c.numbers, x.isFinite = true) (hdepth : c.depth ≤ nestingLimit + 1)
    (ns : Namespace) :
    fault? (c.render .standard ns) =
      (c.numbers.find? Encoder.outOfRange).map fun x => .encoding (.numberOutOfRange x) := by
  have hnumbers : c.numbers = (c.leaves.flatMap Predicate.operands).filterMap Scalar.number? := by
    rw [List.filterMap_flatMap]
    rfl
  have hundated : ∀ t, Scalar.date t ∉ c.leaves.flatMap Predicate.operands := by
    intro t ht
    obtain ⟨p, hp, hoperand⟩ := List.mem_flatMap.mp ht
    exact (hexpressible p hp).undated t hoperand
  rw [hnumbers] at hfinite ⊢
  unfold render
  rw [fault?_renderBelow, faults_eq_of_depth_le (by omega) fun p hp => (hexpressible p hp).listed,
    List.head?_filterMap, Encoder.findSome?_fault?_standard hundated hfinite]

end Condition

/-! ## Section 3: Compiling documents -/

namespace Compiler

variable {compiler : Compiler}

/-- With the standard encoder, what a document is read as is compiled under
    every well-formed token, or refused because of its first number out of
    range. -/
theorem conditionUnder_of_read (hencode : compiler.encode = .standard) {doc : Json}
    (hfinite : ∀ x ∈ doc.numbers, x.isFinite = true) {c : Condition}
    (hread : Document.read doc = .ok c) {token : String} (htoken : isRootToken token = true) :
    fault? (compiler.conditionUnder token c) =
      (c.numbers.find? Encoder.outOfRange).map fun x =>
        .render (.encoding (.numberOutOfRange x)) := by
  obtain ⟨hexpressible, hdepth, hnumbers⟩ := Document.expressible_of_read hread
  rw [hnumbers] at hfinite
  rw [conditionUnder_eq, if_pos htoken, fault?_mapError, hencode,
    Condition.fault?_render_standard hexpressible hfinite hdepth, Option.map_map]
  rfl

/-- **Reader and renderer agree.** With the standard encoder, every
    condition that is read from a document with finite numbers is compiled
    under every well-formed root token, unless a number in it is out of
    range; then the error holds the first such number, leaf by leaf and
    operand by operand. So a document is compiled, or its operator is
    unknown, or its shape, an operand or a number of operands is at fault,
    or a number is out of range. It is never refused because of nesting or
    an empty list after it has been read, because of a number that is not
    finite or a date, because of the root token or the coverage check. -/
theorem document_compiles (hencode : compiler.encode = .standard) {doc : Json}
    (hfinite : ∀ x ∈ doc.numbers, x.isFinite = true) :
    (∀ c, Document.read doc = .ok c → ∀ token, isRootToken token = true →
      (c.numbers.find? Encoder.outOfRange = none →
        ∃ x, compiler.conditionUnder token c = .ok x) ∧
      ∀ n, c.numbers.find? Encoder.outOfRange = some n →
        compiler.conditionUnder token c = .error (.render (.encoding (.numberOutOfRange n)))) ∧
    ((∃ x, compiler.conditionDocument doc = .ok x) ∨
      (∃ token, compiler.conditionDocument doc = .error (.unsupportedOperator token)) ∨
      (∃ fault, compiler.conditionDocument doc = .error (.document (.shape fault))) ∨
      (∃ field fault,
        compiler.conditionDocument doc = .error (.document (.operand field fault))) ∨
      (∃ field operator expected actual, compiler.conditionDocument doc =
        .error (.document (.arity field operator expected actual))) ∨
      ∃ c n, Document.read doc = .ok c ∧ c.numbers.find? Encoder.outOfRange = some n ∧
        compiler.conditionDocument doc = .error (.render (.encoding (.numberOutOfRange n)))) := by
  refine ⟨?_, ?_⟩
  · intro c hread token htoken
    have hfault := conditionUnder_of_read hencode hfinite hread htoken
    constructor
    · intro hnone
      rw [hnone] at hfault
      exact fault?_eq_none_iff.mp hfault
    · intro n hsome
      rw [hsome] at hfault
      exact fault?_eq_some_iff.mp hfault
  · cases hdoc : Document.read doc with
    | ok c =>
      obtain ⟨htoken, _⟩ := Options.isRootToken_of_check compiler.accepted
      have hfault := conditionUnder_of_read hencode hfinite hdoc htoken
      rw [conditionDocument_of_ok hdoc]
      cases hfind : c.numbers.find? Encoder.outOfRange with
      | none =>
        rw [hfind] at hfault
        exact .inl (fault?_eq_none_iff.mp hfault)
      | some n =>
        rw [hfind] at hfault
        exact .inr (.inr (.inr (.inr (.inr
          ⟨c, n, rfl, hfind, fault?_eq_some_iff.mp hfault⟩))))
    | error e =>
      rw [conditionDocument_of_error hdoc]
      have hcontent := Document.isContent_of_read hdoc
      cases e with
      | unsupportedOperator token => exact .inr (.inl ⟨token, rfl⟩)
      | shape fault => exact .inr (.inr (.inl ⟨fault, rfl⟩))
      | operand field fault => exact .inr (.inr (.inr (.inl ⟨field, fault, rfl⟩)))
      | arity field operator expected actual =>
        exact .inr (.inr (.inr (.inr (.inl ⟨field, operator, expected, actual, rfl⟩))))
      | json cause => cases hcontent
      | yaml => cases hcontent
      | notAllowed operator => cases hcontent

/-- Two numbers out of range, the double nearest to `1e200` before that
    nearest to `1e-200`: the first is blamed. Without them the document is
    compiled. -/
theorem document_compiles_but_numbers :
    standard.conditionDocument (.array [
        .array [.text "a", .text "between", .integer 1,
          .real (.finite false ⟨7598952565167317594, by decide⟩)], .text "AND",
        .object [("NOT", .array [.text "b", .text "=",
          .real (.finite false ⟨1614679632300144556, by decide⟩)])]]) =
      .error (.render (.encoding (.numberOutOfRange
        (.finite false ⟨7598952565167317594, by decide⟩)))) ∧
    ∃ x, standard.conditionDocument (.array [
        .array [.text "a", .text "between", .integer 1, .boolean true], .text "AND",
        .object [("NOT", .array [.text "b", .text "=", .integer (-7)])]]) = .ok x := by
  have hencode : standard.encode = .standard := rfl
  have hroot : isRootToken "C" = true := by decide
  constructor
  · have hfinite : ∀ x ∈ (Json.array [
        .array [.text "a", .text "between", .integer 1,
          .real (.finite false ⟨7598952565167317594, by decide⟩)], .text "AND",
        .object [("NOT", .array [.text "b", .text "=",
          .real (.finite false ⟨1614679632300144556, by decide⟩)])]]).numbers,
        x.isFinite = true := by
      decide +kernel
    obtain ⟨hread, _⟩ := document_compiles hencode hfinite
    obtain ⟨_, hrefused⟩ := hread _ rfl "C" hroot
    exact (conditionDocument_of_ok rfl).trans (hrefused _ (by decide +kernel))
  · have hfinite : ∀ x ∈ (Json.array [
        .array [.text "a", .text "between", .integer 1, .boolean true], .text "AND",
        .object [("NOT", .array [.text "b", .text "=", .integer (-7)])]]).numbers,
        x.isFinite = true := by
      decide +kernel
    obtain ⟨hread, _⟩ := document_compiles hencode hfinite
    obtain ⟨hcompiled, _⟩ := hread _ rfl "C" hroot
    obtain ⟨x, hx⟩ := hcompiled (by decide +kernel)
    exact ⟨x, (conditionDocument_of_ok rfl).trans hx⟩

end Compiler
end CondExpr
