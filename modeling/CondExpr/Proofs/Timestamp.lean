import CondExpr.Proofs.InstantText
import Mathlib.Data.List.Forall2

/-! # Timestamps

  The form `YYYY-MM-DDTHH:MM:SS.mmmZ` is made of seven numbers, each in a
  place of its own width with a mark behind it. In places of fixed width the
  order of the texts is that of the numbers: what differs first decides, and
  of two numbers of one width the lesser one has the lesser digits.
-/

namespace CondExpr

/-! ## Section 1: Digits -/

/-- Numbers one after another, each in a place of its width with a mark
    behind it. -/
def inPlaces : List (Nat × Char) → List Nat → List Char
  | (width, mark) :: places, n :: numbers => padded width n ++ mark :: inPlaces places numbers
  | _, _ => []

/-- Every number fits its place, and there is a place for each. -/
def FitPlaces : List (Nat × Char) → List Nat → Prop :=
  List.Forall₂ fun place n => 0 < place.1 ∧ n < 10 ^ place.1

section Places

variable {places : List (Nat × Char)} {numbers numbers' : List Nat}

theorem length_inPlaces (hfit : FitPlaces places numbers) :
    (inPlaces places numbers).length = (places.map (·.1 + 1)).sum := by
  induction hfit with
  | nil => rfl
  | cons hplace _ ih =>
    rw [inPlaces, List.length_append, List.length_cons, length_padded hplace.1 hplace.2, ih,
      List.map_cons, List.sum_cons]
    omega

end Places

/-! ## Section 3: The form -/

/-- A day and a clock reading to the millisecond, as the form
    `YYYY-MM-DDTHH:MM:SS.mmmZ` can show them. Second 60 is a leap second. -/
structure Timestamp where
  date : CivilDate
  hour : Nat
  minute : Nat
  second : Nat
  millisecond : Nat
  /-- The day exists. -/
  date_valid : date.Valid
  /-- The year has four digits and no sign. -/
  year_mem : 0 ≤ date.year ∧ date.year ≤ 9999
  hour_lt : hour < 24
  minute_lt : minute < 60
  second_le : second ≤ 60
  millisecond_lt : millisecond < 1000

namespace Timestamp

/-- The places of the form: the width of each number and the mark behind. -/
def places : List (Nat × Char) :=
  [(4, '-'), (2, '-'), (2, 'T'), (2, ':'), (2, ':'), (2, '.'), (3, 'Z')]

/-- The numbers in their places. -/
def numbers (s : Timestamp) : List Nat :=
  [s.date.year.toNat, s.date.month, s.date.day, s.hour, s.minute, s.second, s.millisecond]

/-- The timestamp in the form. -/
def text (s : Timestamp) : String := .ofList (inPlaces places s.numbers)

theorem fitPlaces (s : Timestamp) : FitPlaces places s.numbers := by
  obtain ⟨-, hmonth, -, hday⟩ := s.date_valid
  have hdays := CivilDate.daysInMonth_le s.date.year s.date.month
  have hyear := s.year_mem
  have hhour := s.hour_lt
  have hminute := s.minute_lt
  have hsecond := s.second_le
  have hmilli := s.millisecond_lt
  unfold FitPlaces places numbers
  simp only [List.forall₂_cons, List.Forall₂.nil, and_true]
  omega

@[simp] theorem length_text (s : Timestamp) : s.text.length = 24 := by
  rw [text, String.length_ofList, length_inPlaces s.fitPlaces]
  rfl

end Timestamp
end CondExpr
