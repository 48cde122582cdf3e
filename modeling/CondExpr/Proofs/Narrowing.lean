import CondExpr.Proofs.Coverage
import CondExpr.Proofs.Fault

/-! # Filters among conditions

  A condition narrows to a filter when all its predicates can be part of
  one, and the filter widens to that condition and to no other. Since a
  filter is compiled as the condition it widens to, the filter entry points
  of a compiler answer what the condition entry points answer for the
  condition. Where a condition does not narrow, the leftmost predicate that
  no filter can hold is to blame; but a document is read to its end before
  anything is narrowed, so its own faults come first.
-/

namespace CondExpr

/-! ## Section 1: Narrowing -/

/-- The predicate can be part of a filter. -/
def Predicate.isFilterable : Predicate → Bool
  | .compare .. | .between .. | .beginsWith .. => true
  | _ => false

theorem Predicate.narrow_eq_ok_iff {p : Predicate} {q : FilterPredicate} :
    p.narrow = .ok q ↔ q.widen = p := by
  constructor
  · intro h
    cases p <;> cases h <;> rfl
  · intro h
    rw [← h]
    cases q <;> rfl

/-- A predicate that cannot be part of a filter is named by its operator. -/
theorem Predicate.fault?_narrow (p : Predicate) :
    fault? p.narrow = if p.isFilterable then none else some ⟨p.operatorToken⟩ := by
  cases p <;> rfl

namespace Condition

/-- A condition narrows to the filter that widens to it. -/
theorem narrow_eq_ok_iff {c : Condition} {f : Filter} : c.narrow = .ok f ↔ f.widen = c := by
  unfold narrow Filter.widen
  induction c generalizing f with
  | leaf p =>
    rw [Expression.mapM, bind_eq_ok_iff]
    simp only [pure_eq_ok_iff, Predicate.narrow_eq_ok_iff]
    cases f <;> simp [Expression.map]
  | join left op right ihl ihr =>
    rw [Expression.mapM, bind_eq_ok_iff]
    simp only [bind_eq_ok_iff, pure_eq_ok_iff, ihl, ihr]
    cases f <;> simp [Expression.map, and_left_comm]
  | negation inner ih =>
    rw [Expression.mapM, bind_eq_ok_iff]
    simp only [pure_eq_ok_iff, ih]
    cases f <;> simp [Expression.map]

/-- A condition is no filter because of the leftmost predicate that cannot
    be part of one. -/
theorem fault?_narrow (c : Condition) :
    fault? c.narrow = (c.leaves.find? fun p => !p.isFilterable).map fun p => ⟨p.operatorToken⟩ := by
  unfold narrow
  rw [Expression.fault?_mapM]
  induction c.leaves with
  | nil => rfl
  | cons p rest ih =>
    rw [List.findSome?_cons, List.find?_cons, Predicate.fault?_narrow, ih]
    cases p.isFilterable <;> rfl

/-- A condition narrows when every leaf of it can be part of a filter. -/
theorem exists_narrow_eq_ok_iff {c : Condition} :
    (∃ f, c.narrow = .ok f) ↔ ∀ p ∈ c.leaves, p.isFilterable = true := by
  rw [← fault?_eq_none_iff, fault?_narrow, Option.map_eq_none_iff, List.find?_eq_none]
  simp only [Bool.not_eq_true', Bool.not_eq_false]

/-- Otherwise the leaves before the one that is named can all be part of a
    filter. -/
theorem narrow_eq_error_iff {c : Condition} {e : NotFilterable} :
    c.narrow = .error e ↔
      ∃ front p back, c.leaves = front ++ p :: back ∧
        (∀ q ∈ front, q.isFilterable = true) ∧ p.isFilterable = false ∧ e = ⟨p.operatorToken⟩ := by
  rw [← fault?_eq_some_iff, fault?_narrow, Option.map_eq_some_iff]
  simp only [List.find?_eq_some_iff_append, Bool.not_eq_true', Bool.not_not]
  constructor
  · intro hfound
    obtain ⟨p, ⟨hp, front, back, hleaves, hfront⟩, he⟩ := hfound
    exact ⟨front, p, back, hleaves, hfront, hp, he.symm⟩
  · intro hsplit
    obtain ⟨front, p, back, hleaves, hfront, hp, he⟩ := hsplit
    exact ⟨p, ⟨hp, front, back, hleaves, hfront⟩, he.symm⟩

/-- **Narrowing is the partial inverse of widening.** A filter narrows back
    from the condition it widens to, and a condition narrows to a filter only
    if it is what the filter widens to. The conditions that narrow are those
    whose leaves are all comparisons, ranges and text beginnings; any other
    is refused with the operator of its leftmost leaf that is none of
    these. -/
theorem narrow_inverts_widen :
    (∀ f : Filter, f.widen.narrow = .ok f) ∧
    ∀ c : Condition,
      (∀ f, c.narrow = .ok f ↔ f.widen = c) ∧
      ((∃ f, c.narrow = .ok f) ↔ ∀ p ∈ c.leaves, p.isFilterable = true) ∧
      ∀ e, c.narrow = .error e ↔
        ∃ front p back, c.leaves = front ++ p :: back ∧
          (∀ q ∈ front, q.isFilterable = true) ∧ p.isFilterable = false ∧
          e = ⟨p.operatorToken⟩ := by
  refine ⟨?_, ?_⟩
  · intro f
    exact narrow_eq_ok_iff.mpr rfl
  · intro c
    exact ⟨fun _ => narrow_eq_ok_iff, exists_narrow_eq_ok_iff, fun _ => narrow_eq_error_iff⟩

/-- Of a size test below a negation and a test for absence to its right the
    size test is named, though a filter could hold the range before it. -/
theorem narrow_inverts_widen_size_and_absent :
    narrow (.join (.join (.leaf (.between "age" (.text "1") (.text "2"))) .and
        (.negation (.leaf (.size "tags" .gt (.signedZero false))))) .or
        (.leaf (.absent "name"))) = .error ⟨"size"⟩ ∧
    narrow (.negation (.join (.leaf (.compare "age" .lt (.boolean true))) .or
        (.leaf (.beginsWith "name" "l")))) =
      .ok (.negation (.join (.leaf (.compare "age" .lt (.boolean true))) .or
        (.leaf (.beginsWith "name" "l")))) := by
  obtain ⟨hback, hnarrow⟩ := narrow_inverts_widen
  obtain ⟨_, _, herror⟩ := hnarrow (.join (.join (.leaf (.between "age" (.text "1") (.text "2")))
    .and (.negation (.leaf (.size "tags" .gt (.signedZero false))))) .or (.leaf (.absent "name")))
  refine ⟨(herror _).mpr ⟨[.between "age" (.text "1") (.text "2")],
    .size "tags" .gt (.signedZero false), [.absent "name"], rfl, ?_, rfl, rfl⟩, ?_⟩
  · intro q hq
    rw [List.mem_singleton.mp hq]
    rfl
  · exact hback (.negation (.join (.leaf (.compare "age" .lt (.boolean true))) .or
      (.leaf (.beginsWith "name" "l"))))

end Condition

/-! ## Section 2: Filters of documents -/

namespace Document

theorem readFilter_eq_of_error {doc : Json} {e : DocumentError} (h : read doc = .error e) :
    readFilter doc = .error e := by
  rw [readFilter, h]
  rfl

theorem readFilter_eq_of_ok {doc : Json} {c : Condition} (h : read doc = .ok c) :
    readFilter doc = c.narrow.mapError fun e => .notAllowed e.operator := by
  rw [readFilter, h]
  rfl

end Document

/-! ## Section 3: Compiling filters -/

namespace Compiler

/-- What a condition narrows to is compiled like the condition. -/
theorem filterUnder_of_narrow {compiler : Compiler} {token : String} {c : Condition} {f : Filter}
    (h : c.narrow = .ok f) : compiler.filterUnder token f = compiler.conditionUnder token c := by
  rw [filterUnder_eq, Condition.narrow_eq_ok_iff.mp h]

/-- **Filters refine conditions.** Under every root token, well-formed or
    not, a compiler answers for a filter what it answers for the condition
    that narrows to it. So the filter of a document is compiled as the
    condition of the document under the filter token, if all predicates can
    be part of a filter. If the document is at fault, filter and condition
    are refused with the same error, whatever predicates have been met on
    the way to the fault. In all other cases the filter is refused because
    of the leftmost predicate that cannot be part of one. -/
theorem filter_refines_condition :
    (∀ (c : Condition) (f : Filter), c.narrow = .ok f →
      ∀ (compiler : Compiler) (token : String),
        compiler.filterUnder token f = compiler.conditionUnder token c) ∧
    ∀ (compiler : Compiler) (doc : Json),
      (∀ c, Document.read doc = .ok c → (∀ p ∈ c.leaves, p.isFilterable = true) →
        compiler.filterDocument doc =
          compiler.conditionUnder compiler.options.filterRoot c) ∧
      (∀ e, Document.read doc = .error e →
        compiler.filterDocument doc = compiler.conditionDocument doc ∧
          compiler.filterDocument doc = .error (.ofDocument e)) ∧
      ∀ c p, Document.read doc = .ok c →
        c.leaves.find? (fun p => !p.isFilterable) = some p →
        compiler.filterDocument doc = .error (.document (.notAllowed p.operatorToken)) := by
  refine ⟨fun c f h compiler token => filterUnder_of_narrow h, ?_⟩
  intro compiler doc
  refine ⟨?_, ?_, ?_⟩
  · intro c hread hleaves
    have hnone : c.leaves.find? (fun p => !p.isFilterable) = none := by
      simpa using hleaves
    obtain ⟨f, hf⟩ : ∃ f, c.narrow = .ok f := by
      rw [← fault?_eq_none_iff, Condition.fault?_narrow, hnone]
      rfl
    unfold filterDocument
    rw [Document.readFilter_eq_of_ok hread, hf]
    exact filterUnder_of_narrow hf
  · intro e hread
    unfold filterDocument
    rw [Document.readFilter_eq_of_error hread, conditionDocument_of_error hread]
    exact ⟨rfl, rfl⟩
  · intro c p hread hfind
    have herror : c.narrow = .error ⟨p.operatorToken⟩ := by
      rw [← fault?_eq_some_iff, Condition.fault?_narrow, hfind]
      rfl
    unfold filterDocument
    rw [Document.readFilter_eq_of_ok hread, herror]
    rfl

/-- A root token that is not well-formed is refused for both. Of two
    predicates that no filter can hold the left one is blamed, unless the
    document has a fault of its own further on. -/
theorem filter_refines_condition_size_and_absent :
    standard.filterUnder "C-1" (.leaf (.beginsWith "name" "l")) =
      standard.conditionUnder "C-1" (.leaf (.beginsWith "name" "l")) ∧
    standard.filterDocument (.array [.array [.text "tags", .text "size", .text ">", .integer 2],
        .text "AND", .object [("NOT", .array [.text "age", .text "not_exists"])]]) =
      .error (.document (.notAllowed "size")) ∧
    standard.filterDocument (.array [.array [.text "tags", .text "size", .text ">", .integer 2],
        .text "AND", .object [("NOT", .array [.text "age", .text "like"])]]) =
      .error (.unsupportedOperator "like") ∧
    ∃ x, standard.filterDocument (.object [("NOT", .array [.text "age", .text "<", .text "9"])]) =
        .ok x ∧ x.expression = "NOT (#F_0_0 < :F_0_0)" := by
  obtain ⟨hunder, hdocument⟩ := filter_refines_condition
  obtain ⟨_, _, hblamed⟩ := hdocument standard (.array [
    .array [.text "tags", .text "size", .text ">", .integer 2], .text "AND",
    .object [("NOT", .array [.text "age", .text "not_exists"])]])
  obtain ⟨_, hfault, _⟩ := hdocument standard (.array [
    .array [.text "tags", .text "size", .text ">", .integer 2], .text "AND",
    .object [("NOT", .array [.text "age", .text "like"])]])
  obtain ⟨hallowed, _⟩ := hdocument standard
    (.object [("NOT", .array [.text "age", .text "<", .text "9"])])
  refine ⟨hunder _ _ rfl standard "C-1", hblamed _ _ rfl rfl, (hfault _ rfl).2, _,
    (hallowed _ rfl ?_).trans rfl, rfl⟩
  decide

end Compiler
end CondExpr
