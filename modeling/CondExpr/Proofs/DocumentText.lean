import CondExpr.Proofs.Compact
import CondExpr.Proofs.Grammar
import Mathlib.Logic.Function.Iterate

/-! # Condition documents in JSON text

  A document may come as a decoded value or as text. Both ways lead to one
  condition as long as the reader of JSON text follows: a document is
  nested as deeply as its condition is high, or one level more for a list
  of values, and the text of one that is nested 128 levels deep is refused.
  The decoded value still has room there, since the nesting limit allows
  conditions of height 129.
-/

namespace CondExpr.Document

/-! ## Section 1: Documents as they are nested -/

section Operands

variable {field : String} {v : Json} {value : Scalar} {values : List Scalar}
  {form : PredicateForm} {operands : List Json} {p : Predicate} {c : Condition}

theorem Operand.height_eq (h : Operand v value) : v.height = 0 := by
  cases h with
  | text s => rfl
  | number hv => cases v <;> first | rfl | cases hv
  | boolean b => rfl

theorem Operand.decoded_eq (h : Operand v value) : v.decoded = v := by
  cases h with
  | text s => rfl
  | number hv => cases v <;> first | rfl | cases hv
  | boolean b => rfl

theorem operands_height_eq (h : List.Forall₂ Operand operands values) :
    Json.heightOfItems operands = 0 := by
  induction h with
  | nil => rfl
  | cons hvalue _ ih => rw [Json.heightOfItems, hvalue.height_eq, ih, Nat.max_self]

theorem operands_decoded_eq (h : List.Forall₂ Operand operands values) :
    Json.decodedItems operands = operands := by
  induction h with
  | nil => rfl
  | cons hvalue _ ih => rw [Json.decodedItems, hvalue.decoded_eq, ih]

/-- Operands are not nested, but for a list of them. -/
theorem Test.height_le (h : Test field form operands p) : Json.heightOfItems operands ≤ 1 := by
  cases h with
  | oneOf _ hvalues =>
    rw [Json.heightOfItems, Json.height, operands_height_eq hvalues]
    exact Nat.le_refl _
  | compare hvalue => simp [Json.heightOfItems, hvalue.height_eq]
  | contains hvalue => simp [Json.heightOfItems, hvalue.height_eq]
  | between hlow hhigh => simp [Json.heightOfItems, hlow.height_eq, hhigh.height_eq]
  | size hbound =>
    simp [Json.heightOfItems, Json.height, (Operand.number hbound).height_eq]
  | beginsWith => simp [Json.heightOfItems, Json.height]
  | present => simp [Json.heightOfItems]
  | absent => simp [Json.heightOfItems]

theorem Test.decoded_eq (h : Test field form operands p) :
    Json.decodedItems operands = operands := by
  cases h with
  | oneOf _ hvalues => rw [Json.decodedItems, Json.decoded, operands_decoded_eq hvalues]; rfl
  | compare hvalue => simp [Json.decodedItems, hvalue.decoded_eq]
  | contains hvalue => simp [Json.decodedItems, hvalue.decoded_eq]
  | between hlow hhigh => simp [Json.decodedItems, hlow.decoded_eq, hhigh.decoded_eq]
  | size hbound => simp [Json.decodedItems, Json.decoded, (Operand.number hbound).decoded_eq]
  | beginsWith => rfl
  | present => rfl
  | absent => rfl

/-- A document is nested as deeply as its condition is high, or one level
    more. -/
theorem Denotes.height_bounds (h : Denotes v c) : c.depth ≤ v.height ∧ v.height ≤ c.depth + 1 := by
  induction h with
  | leaf _ htest =>
    have hle := htest.height_le
    simp only [Expression.depth, Json.height, Json.heightOfItems]
    omega
  | join _ _ ihleft ihright =>
    simp only [Expression.depth, Json.height, Json.heightOfItems]
    omega
  | negation _ ih =>
    simp only [Expression.depth, Json.height, Json.heightOfMembers]
    omega

/-- A document is a decoded value: its objects have one member. -/
theorem Denotes.decoded_eq (h : Denotes v c) : v.decoded = v := by
  induction h with
  | leaf _ htest => rw [Json.decoded, Json.decodedItems, Json.decodedItems, htest.decoded_eq]; rfl
  | join _ _ ihleft ihright =>
    simp only [Json.decoded, Json.decodedItems, ihleft, ihright]
  | negation _ ih =>
    simp only [Json.decoded, Json.decodedMembers, ih]
    rfl

end Operands

/-! ## Section 2: Documents as text -/

/-- **Where text and decoded values part.** A document whose numbers are
    integers of 64 bits is the same in compact text, with the same strings,
    keys and numbers, and is read as the same condition, if it is nested
    less than 128 levels deep. A document that is nested deeper is refused
    as text, although it is accepted as a decoded value. The nesting of a
    document is the height of its condition, or one more. -/
theorem readJson_compact {v : Json} {c : Condition} (hread : read v = .ok c)
    (hnumbers : v.WholeNumbers) :
    (v.height < Json.fullRoom → Json.read v.compact = .ok v ∧ readJson v.compact = .ok c) ∧
      (Json.fullRoom ≤ v.height →
        ∃ place, readJson v.compact = .error (.json ⟨.nestingTooDeep, place⟩)) ∧
      c.depth ≤ v.height ∧ v.height ≤ c.depth + 1 := by
  obtain ⟨hdenotes, -⟩ := read_eq_ok_iff.mp hread
  have hfits : ∀ n, .integer n ∈ v.atoms → Json.Fits64 n := by
    intro n hn
    obtain ⟨n', heq, hfits⟩ := hnumbers _ hn rfl
    rwa [Json.integer.inj heq]
  have hreals : ∀ x, .real x ∈ v.atoms → Json.Reread x := by
    intro x hx
    obtain ⟨n, heq, -⟩ := hnumbers _ hx rfl
    cases heq
  obtain ⟨hlow, hhigh⟩ := Json.read_compact hfits hreals
  refine ⟨?_, ?_, hdenotes.height_bounds⟩
  · intro hheight
    have htext := hlow hheight
    rw [hdenotes.decoded_eq] at htext
    refine ⟨htext, ?_⟩
    unfold readJson
    rw [htext]
    exact hread
  · intro hheight
    obtain ⟨place, htext⟩ := hhigh hheight
    refine ⟨place, ?_⟩
    unfold readJson
    rw [htext]

/-- A document behind a number of negations. -/
def behindNegations (count : Nat) (v : Json) : Json := (fun v => .object [("NOT", v)])^[count] v

theorem behindNegations_succ (count : Nat) (v : Json) :
    behindNegations (count + 1) v = .object [("NOT", behindNegations count v)] :=
  Function.iterate_succ_apply' _ count v

theorem height_behindNegations (count : Nat) (v : Json) :
    (behindNegations count v).height = count + v.height := by
  induction count with
  | zero => exact (Nat.zero_add _).symm
  | succ count ih =>
    rw [behindNegations_succ, Json.height, Json.heightOfMembers, Json.heightOfMembers, ih]
    omega

theorem atoms_behindNegations (count : Nat) (v : Json) :
    (behindNegations count v).atoms = v.atoms := by
  induction count with
  | zero => rfl
  | succ count ih =>
    rw [behindNegations_succ, Json.atoms, Json.atomsOfMembers, Json.atomsOfMembers, ih,
      List.append_nil]

theorem Denotes.behindNegations {v : Json} {c : Condition} (h : Denotes v c) (count : Nat) :
    Denotes (behindNegations count v) (Expression.negation^[count] c) := by
  induction count with
  | zero => exact h
  | succ count ih =>
    rw [behindNegations_succ, Function.iterate_succ_apply']
    exact .negation ih

theorem depth_negations (count : Nat) (c : Condition) :
    (Expression.negation^[count] c).depth = count + c.depth := by
  induction count with
  | zero => exact (Nat.zero_add _).symm
  | succ count ih =>
    rw [Function.iterate_succ_apply', Expression.depth, ih]
    omega

/-- The text of a test of the greatest integer is read behind 126
    negations. Behind 127 and 128 it is refused, and the decoded value is
    not. -/
theorem readJson_compact_negations :
    let leaf : Json := .array [.text "a", .text "=", .integer 18446744073709551615]
    let tree (count : Nat) : Condition := Expression.negation^[count]
      (.leaf (.compare "a" .eq (.number (.ofInt 18446744073709551615))))
    readJson (behindNegations 126 leaf).compact = .ok (tree 126) ∧
      (read (behindNegations 127 leaf) = .ok (tree 127) ∧
        ∃ place, readJson (behindNegations 127 leaf).compact =
          .error (.json ⟨.nestingTooDeep, place⟩)) ∧
      (read (behindNegations 128 leaf) = .ok (tree 128) ∧
        ∃ place, readJson (behindNegations 128 leaf).compact =
          .error (.json ⟨.nestingTooDeep, place⟩)) := by
  intro leaf tree
  have hnumbers (count : Nat) : (behindNegations count leaf).WholeNumbers := by
    intro a ha hnumber
    rw [atoms_behindNegations] at ha
    have hcases : a = .text "a" ∨ a = .text "=" ∨ a = .integer 18446744073709551615 := by
      simpa [leaf, Json.atoms, Json.atomsOfItems] using ha
    rcases hcases with rfl | rfl | rfl
    · cases hnumber
    · cases hnumber
    · exact ⟨_, rfl, by decide, by decide⟩
  have hread (count : Nat) (hle : count ≤ nestingLimit) :
      read (behindNegations count leaf) = .ok (tree count) := by
    have hleaf : Denotes leaf (tree 0) :=
      (read_eq_ok_iff.mp (show read leaf = .ok (tree 0) from rfl)).1
    refine read_eq_ok_iff.mpr ⟨hleaf.behindNegations count, ?_⟩
    rw [depth_negations]
    exact Nat.add_le_add_right hle 1
  have hrefused (count : Nat) (hleast : 127 ≤ count) (hmost : count ≤ nestingLimit) :
      ∃ place, readJson (behindNegations count leaf).compact =
        .error (.json ⟨.nestingTooDeep, place⟩) := by
    obtain ⟨-, hhigh, -⟩ := readJson_compact (hread count hmost) (hnumbers count)
    apply hhigh
    rw [height_behindNegations]
    exact Nat.add_le_add_right hleast 1
  refine ⟨?_, ⟨hread 127 (by decide), hrefused 127 (by decide) (by decide)⟩,
    ⟨hread 128 (by decide), hrefused 128 (by decide) (by decide)⟩⟩
  obtain ⟨hlow, -⟩ := readJson_compact (hread 126 (by decide)) (hnumbers 126)
  exact (hlow (by rw [height_behindNegations]; decide)).2

end CondExpr.Document
