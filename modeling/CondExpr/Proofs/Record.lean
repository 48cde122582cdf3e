import CondExpr.Proofs.Results
import CondExpr.Stored.Record

/-! # Records and their parts

  A record is decoded just when each of its parts is. The part of a field is
  found by its name in an object and by its place in an array. Members that
  are no fields do not matter, nor does the kind of the record, which only
  words the messages.
-/

namespace CondExpr

/-- The part of a record that stands for a field: in an object the only
    member of its name, in an array the item in its place. -/
def Json.part? (name : String) (index : Nat) : Json → Option Json
  | .object members =>
    match members.filter (·.1 = name) with
    | [(_, v)] => some v
    | _ => none
  | .array items => items[index]?
  | _ => none

/-- What can be a record of that many fields: an object, whatever its other
    members, or an array with no items beyond the fields. -/
def Json.HasFields (fields : Nat) : Json → Prop
  | .object _ => True
  | .array items => items.length ≤ fields
  | _ => False

section Records

variable {α β γ : Type} {kind : RecordKind} {f : Field α} {g : Field β} {h : Field γ}
  {v : Json} {a : α} {b : β} {c : γ}

/-- The record holds this value for a field. -/
def Field.Holds (f : Field α) (index : Nat) (v : Json) (a : α) : Prop :=
  ∃ part, v.part? f.name index = some part ∧ f.decode part = .ok a

theorem Field.member?_eq_ok_some_iff {members : List (String × Json)} (index : Nat) :
    f.member? members = .ok (some a) ↔ f.Holds index (.object members) a := by
  unfold Field.member? Field.Holds Json.part?
  dsimp only
  generalize members.filter (·.1 = f.name) = found
  rcases found with _ | ⟨⟨_, part⟩, _ | _⟩
  · simp
  · cases hpart : f.decode part <;> simp [Except.map, hpart]
  · simp

theorem Field.required_eq_ok_iff {found : Option α} :
    f.required found = .ok a ↔ found = some a := by
  cases found <;> simp [Field.required]

theorem Field.item_eq_ok_iff {items : List Json} {fields index : Nat} :
    f.item kind fields items index = .ok a ↔ f.Holds index (.array items) a := by
  unfold Field.item Field.Holds Json.part?
  dsimp only
  generalize items[index]? = found
  cases found <;> simp

theorem checkLength_eq_ok_iff {fields : Nat} {items : List Json} :
    checkLength kind fields items = .ok () ↔ (Json.array items).HasFields fields := by
  unfold checkLength Json.HasFields
  split <;> simp <;> omega

/-- A record with one field is decoded just when its part is. -/
theorem decodeRecord1_eq_ok_iff : decodeRecord1 kind f v = .ok a ↔
    v.HasFields 1 ∧ f.Holds 0 v a := by
  cases v with
  | object members =>
    rw [← Field.member?_eq_ok_some_iff]
    simp only [decodeRecord1, bind_eq_ok_iff, Field.required_eq_ok_iff]
    constructor
    · intro h
      obtain ⟨_, ha, rfl⟩ := h
      exact ⟨trivial, ha⟩
    · intro h
      exact ⟨_, h.2, rfl⟩
  | array items =>
    simp only [decodeRecord1, bind_eq_ok_iff, Field.item_eq_ok_iff, pure_eq_ok_iff]
    constructor
    · intro h
      obtain ⟨_, ha, _, hlength, rfl⟩ := h
      exact ⟨checkLength_eq_ok_iff.mp hlength, ha⟩
    · intro h
      obtain ⟨hlength, ha⟩ := h
      exact ⟨_, ha, _, checkLength_eq_ok_iff.mpr hlength, rfl⟩
  | _ => simp [decodeRecord1, wrongType, Json.HasFields]

/-- A record with two fields is decoded just when both its parts are. -/
theorem decodeRecord2_eq_ok_iff : decodeRecord2 kind f g v = .ok (a, b) ↔
    v.HasFields 2 ∧ f.Holds 0 v a ∧ g.Holds 1 v b := by
  cases v with
  | object members =>
    rw [← Field.member?_eq_ok_some_iff, ← Field.member?_eq_ok_some_iff]
    simp only [decodeRecord2, bind_eq_ok_iff, Field.required_eq_ok_iff, pure_eq_ok_iff]
    constructor
    · intro h
      obtain ⟨_, -, _, ha, _, rfl, _, hb, _, rfl, heq⟩ := h
      cases heq
      exact ⟨trivial, ha, hb⟩
    · intro h
      obtain ⟨-, ha, hb⟩ := h
      rw [ha, hb]
      exact ⟨(), rfl, _, rfl, _, rfl, _, rfl, _, rfl, rfl⟩
  | array items =>
    simp only [decodeRecord2, bind_eq_ok_iff, Field.item_eq_ok_iff, pure_eq_ok_iff]
    constructor
    · intro h
      obtain ⟨_, ha, _, hb, _, hlength, heq⟩ := h
      cases heq
      exact ⟨checkLength_eq_ok_iff.mp hlength, ha, hb⟩
    · intro h
      obtain ⟨hlength, ha, hb⟩ := h
      exact ⟨_, ha, _, hb, _, checkLength_eq_ok_iff.mpr hlength, rfl⟩
  | _ => simp [decodeRecord2, wrongType, Json.HasFields]

/-- A record with three fields is decoded just when all its parts are. -/
theorem decodeRecord3_eq_ok_iff : decodeRecord3 kind f g h v = .ok (a, b, c) ↔
    v.HasFields 3 ∧ f.Holds 0 v a ∧ g.Holds 1 v b ∧ h.Holds 2 v c := by
  cases v with
  | object members =>
    rw [← Field.member?_eq_ok_some_iff, ← Field.member?_eq_ok_some_iff,
      ← Field.member?_eq_ok_some_iff]
    simp only [decodeRecord3, bind_eq_ok_iff, Field.required_eq_ok_iff, pure_eq_ok_iff]
    constructor
    · intro h
      obtain ⟨_, -, _, ha, _, rfl, _, hb, _, rfl, _, hc, _, rfl, heq⟩ := h
      cases heq
      exact ⟨trivial, ha, hb, hc⟩
    · intro h
      obtain ⟨-, ha, hb, hc⟩ := h
      rw [ha, hb, hc]
      exact ⟨(), rfl, _, rfl, _, rfl, _, rfl, _, rfl, _, rfl, _, rfl, rfl⟩
  | array items =>
    simp only [decodeRecord3, bind_eq_ok_iff, Field.item_eq_ok_iff, pure_eq_ok_iff]
    constructor
    · intro h
      obtain ⟨_, ha, _, hb, _, hc, _, hlength, heq⟩ := h
      cases heq
      exact ⟨checkLength_eq_ok_iff.mp hlength, ha, hb, hc⟩
    · intro h
      obtain ⟨hlength, ha, hb, hc⟩ := h
      exact ⟨_, ha, _, hb, _, hc, _, checkLength_eq_ok_iff.mpr hlength, rfl⟩
  | _ => simp [decodeRecord3, wrongType, Json.HasFields]

end Records

end CondExpr
