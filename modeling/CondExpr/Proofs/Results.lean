/-! # Steps that can fail

  A step ends in a result or a fault, and a sequence of steps in the first
  fault or the last result.
-/

namespace CondExpr

variable {α β ε : Type}

@[simp] theorem ok_bind (a : α) (f : α → Except ε β) : (.ok a : Except ε α) >>= f = f a := rfl

@[simp] theorem error_bind (e : ε) (f : α → Except ε β) :
    (.error e : Except ε α) >>= f = .error e := rfl

/-- A sequence of two steps succeeds when both do. -/
theorem bind_eq_ok_iff {x : Except ε α} {f : α → Except ε β} {out : β} :
    x >>= f = .ok out ↔ ∃ a, x = .ok a ∧ f a = .ok out := by
  cases x <;> simp [bind, Except.bind]

theorem pure_eq_ok_iff {a out : α} : (pure a : Except ε α) = .ok out ↔ out = a := by
  simp [pure, Except.pure, eq_comm]

/-- A guarded step succeeds when the guard lets it through and it does. -/
theorem ite_error_eq_ok_iff {p : Prop} [Decidable p] {e : ε} {x : Except ε α} {out : α} :
    (if p then .error e else x) = .ok out ↔ ¬ p ∧ x = .ok out := by
  split <;> simp_all

/-- With another wording of faults the same steps succeed. -/
theorem mapError_eq_ok_iff {ε' : Type} {f : ε → ε'} {x : Except ε α} {out : α} :
    x.mapError f = .ok out ↔ x = .ok out := by
  cases x with
  | error e =>
    show (.error (f e) : Except ε' α) = .ok out ↔ (.error e : Except ε α) = .ok out
    simp only [reduceCtorEq]
  | ok a =>
    show (.ok a : Except ε' α) = .ok out ↔ (.ok a : Except ε α) = .ok out
    simp only [Except.ok.injEq]

/-- A list goes through as a whole when each of its elements does. -/
theorem mapM_eq_ok_iff {f : α → Except ε β} {xs : List α} {ys : List β} :
    xs.mapM f = .ok ys ↔ xs.map f = ys.map .ok := by
  induction xs generalizing ys with
  | nil =>
    rw [List.mapM_nil, List.map_nil, pure_eq_ok_iff, eq_comm (a := []), List.map_eq_nil_iff]
  | cons x xs ih =>
    rw [List.mapM_cons, List.map_cons, bind_eq_ok_iff]
    constructor
    · intro hstep
      obtain ⟨y, hx, h⟩ := hstep
      obtain ⟨rest, hxs, hys⟩ := bind_eq_ok_iff.mp h
      rw [pure_eq_ok_iff.mp hys, hx, ih.mp hxs, List.map_cons]
    · intro h
      cases ys with
      | nil => cases h
      | cons y rest =>
        obtain ⟨hx, hxs⟩ := List.cons.inj h
        exact ⟨y, hx, bind_eq_ok_iff.mpr ⟨rest, ih.mpr hxs, rfl⟩⟩

end CondExpr
