import CondExpr.Proofs.Rendered

/-! # First faults

  Rendering stops at the first fault of a walk over the tree: a node comes
  before what is below it, left before right, and a predicate's operands
  come in their order. Here the walk is written down without rendering, as
  the list of all faults on the way, and a run is shown to end with the
  first of them. Everything that goes through a tree leaf by leaf ends in
  the same way with the fault of the first leaf that has one.
-/

namespace CondExpr

/-! ## Section 1: The fault of a run -/

section Results

variable {α β ε ε' : Type}

/-- The error that a run has ended with, if it failed. -/
def fault? : Except ε α → Option ε
  | .ok _ => none
  | .error e => some e

@[simp] theorem fault?_ok (a : α) : fault? (.ok a : Except ε α) = none := rfl

@[simp] theorem fault?_error (e : ε) : fault? (.error e : Except ε α) = some e := rfl

@[simp] theorem fault?_pure (a : α) : fault? (pure a : Except ε α) = none := rfl

theorem fault?_eq_some_iff {x : Except ε α} {e : ε} : fault? x = some e ↔ x = .error e := by
  cases x <;> simp

theorem fault?_eq_none_iff {x : Except ε α} : fault? x = none ↔ ∃ a, x = .ok a := by
  cases x <;> simp

theorem fault?_mapError (f : ε → ε') (x : Except ε α) :
    fault? (x.mapError f) = (fault? x).map f := by
  cases x <;> rfl

/-- The first step's fault is that of the sequence; without one the second
    step decides. -/
theorem fault?_bind {x : Except ε α} {f : α → Except ε β} {later : Option ε}
    (h : ∀ a, x = .ok a → fault? (f a) = later) : fault? (x >>= f) = (fault? x).or later := by
  cases x with
  | error e => rfl
  | ok a => exact h a rfl

/-- A guard that fails comes before what it guards. -/
theorem fault?_ite_error {p : Prop} [Decidable p] (e : ε) (x : Except ε α) :
    fault? (if p then .error e else x) = (if p then some e else none).or (fault? x) := by
  split <;> rfl

/-- A list is gone through up to the first element with a fault. -/
theorem fault?_mapM (f : α → Except ε β) (xs : List α) :
    fault? (xs.mapM f) = xs.findSome? fun x => fault? (f x) := by
  induction xs with
  | nil => rfl
  | cons x xs ih =>
    have hrest (y : β) : fault? (xs.mapM f >>= fun ys => pure (y :: ys)) = fault? (xs.mapM f) := by
      rw [fault?_bind fun ys _ => fault?_pure (y :: ys), Option.or_none]
    rw [List.mapM_cons, fault?_bind fun y _ => hrest y, ih, List.findSome?_cons]
    cases fault? (f x) <;> rfl

/-- A tree is gone through up to the first leaf with a fault. -/
theorem Expression.fault?_mapM {Leaf Other Fault : Type} (f : Leaf → Except Fault Other)
    (e : Expression Leaf) : fault? (e.mapM f) = e.leaves.findSome? fun p => fault? (f p) := by
  induction e with
  | leaf p =>
    rw [mapM, fault?_bind fun q _ => fault?_pure (leaf q), leaves, List.findSome?_singleton,
      Option.or_none]
  | join left op right ihl ihr =>
    have hright (t : Expression Other) :
        fault? (right.mapM f >>= fun u => pure (t.join op u)) = fault? (right.mapM f) := by
      rw [fault?_bind fun u _ => fault?_pure (t.join op u), Option.or_none]
    rw [mapM, fault?_bind fun t _ => hright t, ihl, ihr, leaves, List.findSome?_append]
  | negation inner ih =>
    rw [mapM, fault?_bind fun t _ => fault?_pure (negation t), ih, Option.or_none, leaves]

end Results

/-! ## Section 2: The faults of a tree -/

/-- What is wrong with a predicate, in the order of the walk: that it has no
    value to compare with, and every operand that the encoder refuses. -/
def Predicate.faults (encode : Encoder) (p : Predicate) : List RenderError :=
  (if p.shape = .oneOf 0 then [.noValues p.field] else []) ++
    p.operands.filterMap fun operand => fault? (encodeOperand encode operand)

/-- What is wrong with a condition that has `above` connectives and
    negations above it, in the order of the walk. -/
def Condition.faults (encode : Encoder) (above : Nat) (c : Condition) : List RenderError :=
  (if nestingLimit < above then [.tooDeep] else []) ++
    match c with
    | .leaf p => p.faults encode
    | .join left _ right => faults encode (above + 1) left ++ faults encode (above + 1) right
    | .negation inner => faults encode (above + 1) inner

private theorem head?_guard {α : Type} {p : Prop} [Decidable p] (a : α) (rest : List α) :
    ((if p then [a] else []) ++ rest).head? = (if p then some a else none).or rest.head? := by
  split <;> rfl

/-- A predicate is refused because of its first fault. -/
theorem Predicate.fault?_render (encode : Encoder) (ns : Namespace) (p : Predicate) :
    fault? (p.render encode ns) = (p.faults encode).head? := by
  rw [render_eq, fault?_ite_error, faults, head?_guard, List.head?_filterMap, ← fault?_mapM,
    fault?_bind fun encoded _ => fault?_pure (p.compiled ns encoded), Option.or_none]

namespace Condition

variable {encode : Encoder}

/-- A condition is refused because of the first fault of the walk. -/
theorem fault?_renderBelow (above : Nat) (ns : Namespace) (c : Condition) :
    fault? (c.renderBelow encode above ns) = (c.faults encode above).head? := by
  -- Each node first meets the limit; the induction follows the walk below it.
  induction c generalizing above ns with
  | leaf p =>
    rw [renderBelow, faults, fault?_ite_error, head?_guard, Predicate.fault?_render]
  | join left op right ihl ihr =>
    have hright (x : CompiledExpression) :
        fault? (renderBelow encode (above + 1) (ns.child 1) right >>= fun y =>
          pure (x.join op y)) = (faults encode (above + 1) right).head? := by
      rw [fault?_bind fun y _ => fault?_pure (x.join op y), Option.or_none, ihr]
    rw [renderBelow, faults, fault?_ite_error, head?_guard, fault?_bind fun x _ => hright x, ihl,
      List.head?_append]
  | negation inner ih =>
    rw [renderBelow, faults, fault?_ite_error, head?_guard,
      fault?_bind fun x _ => fault?_pure (CompiledExpression.negation x), Option.or_none, ih]

/-- Within the limit and without empty lists of values only operands can be
    at fault. -/
theorem faults_eq_of_depth_le {c : Condition} {above : Nat}
    (hdepth : above + c.depth ≤ nestingLimit + 1) (hlists : ∀ p ∈ c.leaves, p.shape ≠ .oneOf 0) :
    c.faults encode above =
      (c.leaves.flatMap Predicate.operands).filterMap fun operand =>
        fault? (encodeOperand encode operand) := by
  induction c generalizing above with
  | leaf p =>
    rw [Expression.depth] at hdepth
    have habove : ¬ nestingLimit < above := by omega
    have hcount : p.shape ≠ .oneOf 0 := hlists p List.mem_cons_self
    rw [faults, if_neg habove, List.nil_append, Predicate.faults, if_neg hcount, List.nil_append]
    simp [Expression.leaves]
  | join left op right ihl ihr =>
    rw [Expression.depth] at hdepth
    have habove : ¬ nestingLimit < above := by omega
    have hleft := @ihl (above + 1) (by omega)
      fun p hp => hlists p (List.mem_append_left _ hp)
    have hright := @ihr (above + 1) (by omega)
      fun p hp => hlists p (List.mem_append_right _ hp)
    rw [faults, if_neg habove, List.nil_append, hleft, hright, Expression.leaves,
      List.flatMap_append, List.filterMap_append]
  | negation inner ih =>
    rw [Expression.depth] at hdepth
    have habove : ¬ nestingLimit < above := by omega
    rw [faults, if_neg habove, List.nil_append, @ih (above + 1) (by omega) hlists,
      Expression.leaves]

end Condition

/-! ## Section 3: The walk -/

namespace Expression

variable {Leaf : Type}

/-- The nodes of a tree and the paths to them, in the order of the walk: a
    node before what is below it, left before right. -/
def walk : Expression Leaf → List (List Nat × Expression Leaf)
  | .leaf p => [([], .leaf p)]
  | .join left op right =>
    ([], .join left op right) :: left.walk.map (fun visit => (0 :: visit.1, visit.2)) ++
      right.walk.map (fun visit => (1 :: visit.1, visit.2))
  | .negation inner =>
    ([], .negation inner) :: inner.walk.map (fun visit => (0 :: visit.1, visit.2))

/-- The walk visits exactly the nodes that paths lead to. -/
theorem mem_walk_iff {e d : Expression Leaf} {path : List Nat} :
    (path, d) ∈ e.walk ↔ e.nodeAt? path = some d := by
  -- The first step of a path tells which part of the walk it belongs to.
  induction e generalizing path with
  | leaf p =>
    cases path <;> simp [walk, nodeAt?, eq_comm (a := d)]
  | join left op right ihl ihr =>
    rcases path with _ | ⟨_ | _ | index, path⟩ <;>
      simp [walk, nodeAt?, ihl, ihr, eq_comm (a := d)]
  | negation inner ih =>
    rcases path with _ | ⟨_ | index, path⟩ <;> simp [walk, nodeAt?, ih, eq_comm (a := d)]

end Expression

namespace Condition

variable {encode : Encoder}

/-- What is wrong with a node that has `above` connectives and negations
    above it, apart from the nodes below: that it lies too deep, and if it is
    a predicate, the faults of the predicate. -/
def ownFaults (encode : Encoder) (above : Nat) (c : Condition) : List RenderError :=
  (if nestingLimit < above then [.tooDeep] else []) ++
    match c with
    | .leaf p => p.faults encode
    | .join .. | .negation _ => []

/-- The faults of a condition are those of its nodes, visit by visit. -/
theorem faults_eq_walk (above : Nat) (c : Condition) :
    c.faults encode above =
      c.walk.flatMap fun visit => ownFaults encode (above + visit.1.length) visit.2 := by
  induction c generalizing above with
  | leaf p => simp [faults, Expression.walk, ownFaults]
  | join left op right ihl ihr =>
    rw [faults, ihl, ihr]
    simp [Expression.walk, ownFaults, List.flatMap_map, Nat.add_assoc, Nat.add_comm 1]
  | negation inner ih =>
    rw [faults, ih]
    simp [Expression.walk, ownFaults, List.flatMap_map, Nat.add_assoc, Nat.add_comm 1]

/-- Without a fault of lists and operands the height alone decides. -/
theorem faults_eq_nil_iff {c : Condition}
    (hleaves : ∀ p ∈ c.leaves, p.shape ≠ .oneOf 0 ∧ ∀ v ∈ p.operands, ∃ a, encode v = .ok a) :
    c.faults encode 0 = [] ↔ c.depth ≤ nestingLimit + 1 := by
  constructor
  · intro hnone
    rw [Expression.depth_le_iff]
    intro path d hnode
    have hown : ownFaults encode (0 + path.length) d = [] := by
      rw [faults_eq_walk, List.flatMap_eq_nil_iff] at hnone
      exact hnone (path, d) (Expression.mem_walk_iff.mpr hnode)
    have hshallow : ¬ nestingLimit < 0 + path.length := by
      intro hdeep
      unfold ownFaults at hown
      rw [if_pos hdeep] at hown
      cases hown
    omega
  · intro hdepth
    rw [faults_eq_of_depth_le (by omega) fun p hp => (hleaves p hp).1, List.filterMap_eq_nil_iff]
    intro v hv
    obtain ⟨p, hp, hoperand⟩ := List.mem_flatMap.mp hv
    obtain ⟨a, ha⟩ := (hleaves p hp).2 v hoperand
    rw [encodeOperand, ha]
    rfl

/-- **The first fault decides.** A node has a fault when more connectives
    and negations are above it than the limit allows, when it tests for one
    of no values, and for every operand that the encoder refuses. Under every
    namespace and with every encoder a condition is rendered just when no
    node on the walk has a fault, and otherwise refused because of the first
    fault on the walk. So where all operands are encoded and no list of
    values is empty, the height of the condition decides. -/
theorem render_first_fault (encode : Encoder) (ns : Namespace) (c : Condition) :
    ((∃ x, c.render encode ns = .ok x) ↔
      ∀ path d, c.nodeAt? path = some d → ownFaults encode path.length d = []) ∧
    (∀ e, c.render encode ns = .error e ↔
      (c.walk.flatMap fun visit => ownFaults encode visit.1.length visit.2).head? = some e) ∧
    ((∀ p ∈ c.leaves, p.shape ≠ .oneOf 0 ∧ ∀ v ∈ p.operands, ∃ a, encode v = .ok a) →
      ((∃ x, c.render encode ns = .ok x) ↔ c.depth ≤ nestingLimit + 1)) := by
  have hwalk : c.faults encode 0 =
      c.walk.flatMap fun visit => ownFaults encode visit.1.length visit.2 := by
    rw [faults_eq_walk]
    simp only [Nat.zero_add]
  have hfault : fault? (c.render encode ns) = (c.faults encode 0).head? :=
    fault?_renderBelow 0 ns c
  have hrendered : (∃ x, c.render encode ns = .ok x) ↔ c.faults encode 0 = [] := by
    rw [← fault?_eq_none_iff, hfault, List.head?_eq_none_iff]
  refine ⟨?_, ?_, ?_⟩
  · rw [hrendered, hwalk, List.flatMap_eq_nil_iff]
    constructor
    · intro hnone path d hnode
      exact hnone (path, d) (Expression.mem_walk_iff.mpr hnode)
    · intro hnone visit hvisit
      exact hnone visit.1 visit.2 (Expression.mem_walk_iff.mp hvisit)
  · intro e
    rw [← fault?_eq_some_iff, hfault, hwalk]
  · intro hleaves
    rw [hrendered, faults_eq_nil_iff hleaves]

/-- Of an empty list and an infinite bound the left one is blamed, whichever
    it is. A predicate below 129 negations lies too deep, and that comes
    before its empty list; below 128 a predicate is rendered. -/
theorem render_first_fault_list_bound_and_depth :
    render .standard (.root "C") (.join (.leaf (.oneOf "a" [])) .and
        (.leaf (.size "b" .gt (.infinite false)))) = .error (.noValues "a") ∧
    render .standard (.root "C") (.join (.leaf (.size "b" .gt (.infinite false))) .and
        (.leaf (.oneOf "a" []))) = .error (.encoding (.notFinite (.infinite false))) ∧
    render .standard (.root "C") (Nat.repeat Expression.negation 129 (.leaf (.oneOf "a" []))) =
      .error .tooDeep ∧
    ∃ x, render .standard (.root "C")
      (Nat.repeat Expression.negation 128 (.leaf (.present "a"))) = .ok x := by
  refine ⟨?_, ?_, ?_, ?_⟩
  · exact ((render_first_fault _ _ _).2.1 _).mpr rfl
  · exact ((render_first_fault _ _ _).2.1 _).mpr rfl
  · exact ((render_first_fault _ _ _).2.1 _).mpr (by decide +kernel)
  · refine ((render_first_fault _ _ _).2.2 ?_).mpr (by decide +kernel)
    intro p hp
    have heq : p = .present "a" := List.mem_singleton.mp hp
    rw [heq]
    exact ⟨by decide, fun v hv => absurd hv List.not_mem_nil⟩

end Condition
end CondExpr
