import CondExpr.Proofs.Rounding

/-! # The nearest double

  What rounding is for, said of numbers with a sign and without intervals: a
  double is *nearest* to a number when every double of another value is
  farther away, or just as far while the nearest one is even. A number in the
  rounding interval of a magnitude has the double of that magnitude nearest
  to it. The order of numbers and the order of what is nearest to them go
  together: if the doubles differ, the numbers differ in the same direction.
-/

namespace CondExpr.Binary64

/-! ## Section 1: Values -/

/-- The number of the given sign and magnitude. -/
def signed (negative : Bool) (magnitude : ℚ) : ℚ := if negative then -magnitude else magnitude

@[simp] theorem signed_zero (negative : Bool) : signed negative 0 = 0 := by
  cases negative <;> simp [signed]

@[simp] theorem abs_signed (negative : Bool) (q : ℚ) : |signed negative q| = |q| := by
  cases negative <;> simp [signed]

theorem abs_signed_sub (negative : Bool) (p q : ℚ) :
    |signed negative p - signed negative q| = |p - q| := by
  cases negative with
  | false => rfl
  | true =>
    show |(-p) - (-q)| = |p - q|
    rw [neg_sub_neg, abs_sub_comm]

theorem abs_signed_sub_not (negative : Bool) (p q : ℚ) :
    |signed negative p - signed (!negative) q| = |p + q| := by
  cases negative with
  | false =>
    show |p - (-q)| = |p + q|
    rw [sub_neg_eq_add]
  | true =>
    show |(-p) - q| = |p + q|
    rw [← neg_add', abs_neg]

/-- The magnitude of a rank, as a number. -/
def magnitude (rank : Nat) : ℚ := units rank / unitsPerOne

theorem cast_unitsPerOne_pos : (0 : ℚ) < unitsPerOne := by exact_mod_cast twoPow_pos 1074

theorem magnitude_strictMono : StrictMono magnitude := by
  intro rank rank' hlt
  unfold magnitude
  rw [div_lt_div_iff_of_pos_right cast_unitsPerOne_pos]
  exact_mod_cast units_strictMono hlt

@[simp] theorem magnitude_zero : magnitude 0 = 0 := by
  rw [magnitude, units_zero, Nat.cast_zero, zero_div]

theorem magnitude_nonneg (rank : Nat) : 0 ≤ magnitude rank := by
  rw [← magnitude_zero]
  exact magnitude_strictMono.monotone (Nat.zero_le rank)

/-- The number that a finite double is. Both zeros are one number; NaN and
    the infinities are none. -/
def value? : Binary64 → Option ℚ
  | .finite negative rank => some (signed negative (magnitude rank))
  | _ => none

/-- The significand ends with a zero bit. -/
def IsEven : Binary64 → Prop
  | .finite _ rank => rank.val % 2 = 0
  | _ => False

/-- What has a value is finite. -/
theorem exists_of_value?_eq_some {x : Binary64} {v : ℚ} (h : x.value? = some v) :
    ∃ negative rank, x = .finite negative rank ∧ v = signed negative (magnitude rank) := by
  cases x with
  | nan => cases h
  | infinite negative => cases h
  | finite negative rank => exact ⟨negative, rank, rfl, (Option.some.inj h).symm⟩

/-! ## Section 2: Nearest -/

/-- The double is what the number is rounded to, a half to even. -/
def IsNearest (q : ℚ) (x : Binary64) : Prop :=
  ∃ v, x.value? = some v ∧ ∀ (other : Binary64) w, other.value? = some w → w ≠ v →
    |q - v| < |q - w| ∨ (|q - v| = |q - w| ∧ x.IsEven)

private theorem exists_between_magnitudes (negative : Bool) {rank rank' : Fin rankCount}
    (hlt : magnitude rank < magnitude rank') (heven : rank.val % 2 = 0)
    (heven' : rank'.val % 2 = 0) :
    ∃ (z : Binary64) (r : Nat), z.value? = some (signed negative (magnitude r)) ∧
      magnitude rank < magnitude r ∧ magnitude r < magnitude rank' := by
  have hranks : rank.val < rank'.val := magnitude_strictMono.lt_iff_lt.mp hlt
  -- The rank after an even one is odd, so it is not yet the other one.
  have hnext : rank.val + 1 < rank'.val := by omega
  refine ⟨.finite negative ⟨rank.val + 1, hnext.trans rank'.isLt⟩, rank.val + 1, rfl, ?_, ?_⟩
  · exact magnitude_strictMono (Nat.lt_succ_self _)
  · exact magnitude_strictMono hnext

/-- Between two even doubles of different values there is another one. -/
theorem exists_between {x y : Binary64} {v w : ℚ} (hx : x.value? = some v) (hy : y.value? = some w)
    (hxeven : x.IsEven) (hyeven : y.IsEven) (hlt : v < w) :
    ∃ z u, value? z = some u ∧ v < u ∧ u < w := by
  obtain ⟨negx, rankx, rfl, rfl⟩ := exists_of_value?_eq_some hx
  obtain ⟨negy, ranky, rfl, rfl⟩ := exists_of_value?_eq_some hy
  have hzero : value? (signedZero false) = some 0 := by
    show some (signed false (magnitude 0)) = some 0
    rw [magnitude_zero, signed_zero]
  have hxnonneg := magnitude_nonneg rankx
  have hynonneg := magnitude_nonneg ranky
  cases negx with
  | false =>
    cases negy with
    | false =>
      obtain ⟨z, r, hz, hlow, hhigh⟩ := exists_between_magnitudes false hlt hxeven hyeven
      exact ⟨z, _, hz, hlow, hhigh⟩
    | true =>
      have hlt' : magnitude rankx < -magnitude ranky := hlt
      linarith
  | true =>
    cases negy with
    | true =>
      have hlt' : -magnitude rankx < -magnitude ranky := hlt
      obtain ⟨z, r, hz, hlow, hhigh⟩ :=
        exists_between_magnitudes true (neg_lt_neg_iff.mp hlt') hyeven hxeven
      exact ⟨z, _, hz, neg_lt_neg hhigh, neg_lt_neg hlow⟩
    | false =>
      have hlt' : -magnitude rankx < magnitude ranky := hlt
      -- Zero lies between, unless one of the two is zero itself.
      rcases hxnonneg.eq_or_lt with hxzero | hxpos
      · have hpos : magnitude (0 : Fin rankCount) < magnitude ranky := by
          rw [← hxzero, neg_zero] at hlt'
          exact magnitude_zero.trans_lt hlt'
        obtain ⟨z, r, hz, hlow, hhigh⟩ := exists_between_magnitudes false hpos rfl hyeven
        refine ⟨z, _, hz, ?_, hhigh⟩
        show -magnitude rankx < magnitude r
        rw [← hxzero, neg_zero]
        exact magnitude_zero.symm.trans_lt hlow
      · rcases hynonneg.eq_or_lt with hyzero | hypos
        · have hpos : magnitude (0 : Fin rankCount) < magnitude rankx :=
            magnitude_zero.trans_lt hxpos
          obtain ⟨z, r, hz, hlow, hhigh⟩ := exists_between_magnitudes true hpos rfl hxeven
          refine ⟨z, _, hz, neg_lt_neg hhigh, ?_⟩
          show -magnitude r < magnitude ranky
          rw [← hyzero, neg_lt_zero]
          exact magnitude_zero.symm.trans_lt hlow
        · exact ⟨_, 0, hzero, neg_lt_zero.mpr hxpos, hypos⟩

/-- Of two numbers the lesser one is nearer to what lies before the middle. -/
theorem abs_sub_le_iff_le_middle {p v w : ℚ} (hlt : v < w) :
    |p - v| ≤ |p - w| ↔ 2 * p ≤ v + w := by
  have hdiff : (p - w) ^ 2 - (p - v) ^ 2 = (w - v) * (v + w - 2 * p) := by ring
  rw [← sq_le_sq, ← sub_nonneg, hdiff, mul_nonneg_iff_of_pos_left (sub_pos.mpr hlt), sub_nonneg]

/-- And the greater one to what lies behind it. -/
theorem abs_sub_le_iff_middle_le {p v w : ℚ} (hlt : v < w) :
    |p - w| ≤ |p - v| ↔ v + w ≤ 2 * p := by
  have hdiff : (p - v) ^ 2 - (p - w) ^ 2 = (w - v) * (2 * p - (v + w)) := by ring
  rw [← sq_le_sq, ← sub_nonneg, hdiff, mul_nonneg_iff_of_pos_left (sub_pos.mpr hlt), sub_nonneg]

namespace IsNearest

variable {p q v w : ℚ} {x y : Binary64}

theorem abs_sub_le (h : IsNearest q x) (hx : x.value? = some v) (hy : y.value? = some w) :
    |q - v| ≤ |q - w| := by
  obtain ⟨v', hv', hnearer⟩ := h
  obtain rfl : v' = v := Option.some.inj (hv'.symm.trans hx)
  by_cases hne : w = v'
  · rw [hne]
  · rcases hnearer y w hy hne with hlt | ⟨heq, _⟩
    · exact hlt.le
    · exact heq.le

theorem isEven (h : IsNearest q x) (hx : x.value? = some v) (hy : y.value? = some w)
    (hne : w ≠ v) (heq : |q - v| = |q - w|) : x.IsEven := by
  obtain ⟨v', hv', hnearer⟩ := h
  obtain rfl : v' = v := Option.some.inj (hv'.symm.trans hx)
  rcases hnearer y w hy hne with hlt | ⟨_, heven⟩
  · exact absurd heq hlt.ne
  · exact heven

/-- Numbers are in the order of the doubles nearest to them. -/
theorem lt_of_value?_lt (hp : IsNearest p x) (hq : IsNearest q y) (hx : x.value? = some v)
    (hy : y.value? = some w) (hlt : v < w) : p < q := by
  have hpx : |p - v| ≤ |p - w| := hp.abs_sub_le hx hy
  have hqy : |q - w| ≤ |q - v| := hq.abs_sub_le hy hx
  have hpmiddle : 2 * p ≤ v + w := (abs_sub_le_iff_le_middle hlt).mp hpx
  have hqmiddle : v + w ≤ 2 * q := (abs_sub_le_iff_middle_le hlt).mp hqy
  by_contra hge
  -- Then both numbers are the middle, and both doubles are even.
  have hp2 : 2 * p = v + w := by linarith
  have hpq : p = q := by linarith
  have hpw : |p - w| ≤ |p - v| := (abs_sub_le_iff_middle_le hlt).mpr hp2.ge
  have heq : |p - v| = |p - w| := le_antisymm hpx hpw
  have hxeven : x.IsEven := hp.isEven hx hy hlt.ne' heq
  have hyeven : y.IsEven := by
    rw [hpq] at heq
    exact hq.isEven hy hx hlt.ne heq.symm
  -- So there is a double between them, and that is nearer to the middle.
  obtain ⟨z, u, hz, hvu, huw⟩ := exists_between hx hy hxeven hyeven hlt
  have hpu : 2 * p ≤ v + u := (abs_sub_le_iff_le_middle hvu).mp (hp.abs_sub_le hx hz)
  linarith

/-- What is nearest to a number is one double, or the two zeros. -/
theorem value?_eq (hx : IsNearest q x) (hy : IsNearest q y) : x.value? = y.value? := by
  obtain ⟨v, hv, _⟩ := id hx
  obtain ⟨w, hw, _⟩ := id hy
  rw [hv, hw]
  rcases lt_trichotomy v w with hlt | heq | hgt
  · exact absurd (hx.lt_of_value?_lt hy hv hw hlt) (lt_irrefl q)
  · rw [heq]
  · exact absurd (hy.lt_of_value?_lt hx hw hv hgt) (lt_irrefl q)

end IsNearest

/-! ## Section 3: Nearest by intervals -/

namespace Rounds

variable {y : ℚ} {rank other : Nat}

/-- Every other magnitude is farther, or as far from a half. -/
theorem nearer (h : Rounds y rank) (hne : other ≠ rank) :
    |y - units rank| < |y - units other| ∨
      (|y - units rank| = |y - units other| ∧ rank % 2 = 0) := by
  rcases (h.nearest other).lt_or_eq with hlt | heq
  · exact .inl hlt
  · refine .inr ⟨heq, ?_⟩
    by_contra hodd
    -- The ends of the interval are halfway to the neighbours and do not belong to it.
    obtain ⟨hleast, hmost⟩ := h.inside (by omega)
    have hmiddle : 2 * y = units rank + units other := by
      rcases abs_eq_abs.mp heq with hsame | hopposite
      · have hunits : (units other : ℚ) = units rank := by linarith
        exact absurd (units_strictMono.injective (by exact_mod_cast hunits)) hne
      · linarith
    rcases Nat.lt_or_gt_of_ne hne with hlt | hgt
    · have hmono : units other ≤ units (rank - 1) := units_strictMono.monotone (by omega)
      have hmono' : (units other : ℚ) ≤ units (rank - 1) := by exact_mod_cast hmono
      linarith
    · have hmono : units (rank + 1) ≤ units other := units_strictMono.monotone (by omega)
      have hmono' : (units (rank + 1) : ℚ) ≤ units other := by exact_mod_cast hmono
      linarith

/-- The same of numbers instead of units. -/
theorem nearer_magnitude {q : ℚ} (h : Rounds (q * unitsPerOne) rank) (hne : other ≠ rank) :
    |q - magnitude rank| < |q - magnitude other| ∨
      (|q - magnitude rank| = |q - magnitude other| ∧ rank % 2 = 0) := by
  have hscale (r : Nat) : |q * unitsPerOne - units r| = |q - magnitude r| * unitsPerOne := by
    have hdiff : q * unitsPerOne - units r = (q - magnitude r) * unitsPerOne := by
      rw [magnitude, sub_mul, div_mul_cancel₀ _ cast_unitsPerOne_pos.ne']
    rw [hdiff, abs_mul, abs_of_pos cast_unitsPerOne_pos]
  have hunits := h.nearer hne
  rw [hscale, hscale, mul_lt_mul_iff_of_pos_right cast_unitsPerOne_pos,
    mul_left_inj' cast_unitsPerOne_pos.ne'] at hunits
  exact hunits

/-- No nearer magnitude is zero. -/
theorem abs_sub_magnitude_le {q : ℚ} (h : Rounds (q * unitsPerOne) rank) (hq : 0 ≤ q) :
    |q - magnitude rank| ≤ q := by
  have hzero : |q - magnitude 0| = q := by rw [magnitude_zero, sub_zero, abs_of_nonneg hq]
  by_cases hrank : 0 = rank
  · rw [← hrank, hzero]
  · rcases h.nearer_magnitude hrank with hlt | ⟨heq, _⟩
    · exact (hlt.trans_eq hzero).le
    · exact (heq.trans hzero).le

/-- In the interval of a magnitude its double is nearest, with either sign. -/
theorem isNearest {q : ℚ} {rank : Fin rankCount} (h : Rounds (q * unitsPerOne) rank.val)
    (hq : 0 ≤ q) (negative : Bool) : IsNearest (signed negative q) (.finite negative rank) := by
  refine ⟨signed negative (magnitude rank), rfl, ?_⟩
  intro other w hother hne
  obtain ⟨sign, rank', rfl, rfl⟩ := exists_of_value?_eq_some hother
  by_cases hsign : sign = negative
  · subst hsign
    have hranks : rank'.val ≠ rank.val := fun heq => hne (by rw [heq])
    rw [abs_signed_sub, abs_signed_sub]
    exact h.nearer_magnitude hranks
  · obtain rfl : sign = !negative := Bool.eq_not.mpr hsign
    rw [abs_signed_sub, abs_signed_sub_not]
    -- On the other side of zero nothing is nearer than zero, and only zero is as near.
    rcases (magnitude_nonneg rank'.val).eq_or_lt with hzero | hpos
    · have hranks : 0 ≠ rank.val := by
        intro heq
        rw [← hzero, ← heq, magnitude_zero, signed_zero, signed_zero] at hne
        exact hne rfl
      have hnearer := h.nearer_magnitude hranks
      rw [magnitude_zero, sub_zero] at hnearer
      rw [← hzero, add_zero]
      exact hnearer
    · have hle : |q - magnitude rank| ≤ q := h.abs_sub_magnitude_le hq
      have hsum : |q + magnitude rank'| = q + magnitude rank' := abs_of_nonneg (by linarith)
      rw [hsum]
      exact .inl (by linarith)

end Rounds

/-- The double of a fraction's rank is nearest to the fraction. -/
theorem isNearest_div {num den : Nat} (hden : 0 < den) {rank : Fin rankCount}
    (hrank : rankOfRatio num den = rank.val) : IsNearest (num / den) (.finite false rank) := by
  have hrounds := (rankOfRatio_eq_iff hden).mp hrank
  rw [← div_mul_eq_mul_div] at hrounds
  exact hrounds.isNearest (by positivity) false

end CondExpr.Binary64
