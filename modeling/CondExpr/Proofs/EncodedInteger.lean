import CondExpr.Proofs.EncodedNumber
import CondExpr.Proofs.Grammar
import CondExpr.Proofs.Reread

/-! # Encoded integers

  Whole numbers up to `2 ^ 53` are doubles, and below that no two of them
  are rounded to one. So if a whole number lies in the rounding interval of
  another, they are equal, and since the decimal that is written is found on
  a grid of whole numbers, it is the number itself. Farther out integers
  collapse, but rounding keeps their order, and so do the digits.
-/

namespace CondExpr

open Binary64 (IsNearest IsWhole magnitude rankOfRatio signed units unitsPerOne)

/-! ## Section 1: Whole numbers and their ranks -/

namespace Binary64

theorem units_rankOfRatio {n : Nat} (hle : n ≤ 2 * twoPow 52) :
    units (rankOfRatio n 1) = n * unitsPerOne := by
  have hwhole : IsWhole (n * twoPow 0) := isWhole_of_le hle
  rwa [show twoPow 0 = 1 from rfl, Nat.mul_one] at hwhole

theorem rankOfRatio_mono {m n : Nat} (hle : m ≤ n) : rankOfRatio m 1 ≤ rankOfRatio n 1 :=
  rankOfRatio_le Nat.one_pos Nat.one_pos (Nat.mul_le_mul_right 1 hle)

theorem rankOfRatio_lt {m n : Nat} (hlt : m < n) (hle : n ≤ 2 * twoPow 52) :
    rankOfRatio m 1 < rankOfRatio n 1 := by
  rw [← units_strictMono.lt_iff_lt, units_rankOfRatio hle, units_rankOfRatio (by omega)]
  exact Nat.mul_lt_mul_of_pos_right hlt Decimal.unitsPerOne_pos

/-- Below `2 ^ 53` no other whole number is rounded to the same rank. -/
theorem eq_of_rankOfRatio_eq {m n : Nat} (hlt : m < 2 * twoPow 52)
    (heq : rankOfRatio n 1 = rankOfRatio m 1) : n = m := by
  rcases Nat.lt_trichotomy n m with hless | hsame | hmore
  · have hranks := rankOfRatio_lt hless hlt.le
    omega
  · exact hsame
  · have hnext : rankOfRatio m 1 < rankOfRatio (m + 1) 1 := rankOfRatio_lt (Nat.lt_succ_self m) hlt
    have hranks : rankOfRatio (m + 1) 1 ≤ rankOfRatio n 1 := rankOfRatio_mono hmore
    omega

end Binary64

/-! ## Section 2: Whole decimals -/

theorem toDigits_mul_tenPow {n : Nat} (hpos : 0 < n) (power : Nat) :
    Nat.toDigits 10 (n * tenPow power) = Nat.toDigits 10 n ++ List.replicate power '0' := by
  induction power with
  | zero => simp
  | succ power ih =>
    have hsplit : n * tenPow (power + 1) = 10 * (n * tenPow power) + 0 := by
      show n * (10 ^ power * 10) = 10 * (n * 10 ^ power) + 0
      ring
    have hmore : 0 < n * tenPow power := Nat.mul_pos hpos (Decimal.tenPow_pos power)
    have hzero : Nat.toDigits 10 0 = ['0'] := Nat.toDigits_of_lt_base (by decide)
    rw [hsplit, ← Nat.toDigits_append_toDigits (by decide) hmore (by decide), ih, hzero,
      List.append_assoc, ← List.replicate_succ']

namespace Decimal

/-- The decimal is this whole number, and its exponent shows it. -/
def IsInteger (d : Decimal) (n : Nat) : Prop :=
  0 ≤ d.exponent ∧ d.coefficient * tenPow d.exponent.toNat = n

variable {d : Decimal} {n : Nat}

theorem IsInteger.trim (h : d.IsInteger n) : d.trim.IsInteger n := by
  fun_induction Decimal.trim d with
  | case1 d hzero ih =>
    obtain ⟨-, hten⟩ := hzero
    obtain ⟨part, hpart⟩ := Nat.dvd_of_mod_eq_zero hten
    obtain ⟨hnonneg, hvalue⟩ := h
    apply ih
    refine ⟨by dsimp only; omega, ?_⟩
    have hnext : (d.exponent + 1).toNat = d.exponent.toNat + 1 := by omega
    show d.coefficient / 10 * tenPow (d.exponent + 1).toNat = n
    rw [← hvalue, hpart, Nat.mul_div_cancel_left part (by decide), hnext]
    show part * (10 ^ d.exponent.toNat * 10) = 10 * part * 10 ^ d.exponent.toNat
    ring
  | case2 d hdone => exact h

theorem IsInteger.inUnits_eq (h : d.IsInteger n) : d.inUnits = (n : ℚ) * unitsPerOne := by
  obtain ⟨hnonneg, hvalue⟩ := h
  have hplaces : (-d.exponent).toNat = 0 := by omega
  rw [inUnits_eq_div, hplaces, hvalue, show tenPow 0 = 1 from rfl, Nat.cast_one, div_one]

theorem IsInteger.positional_eq (h : d.IsInteger n) (hpos : 0 < n) :
    d.positional = Nat.toDigits 10 n := by
  obtain ⟨hnonneg, hvalue⟩ := h
  have hplaces : (-d.exponent).toNat = 0 := by omega
  have hcoefficient : 0 < d.coefficient := by
    rw [← hvalue] at hpos
    exact Nat.pos_of_mul_pos_right hpos
  unfold positional
  rw [← hvalue, toDigits_mul_tenPow hcoefficient]
  exact if_pos hplaces

/-! ## Section 3: The decimal of a whole number -/

theorem gridStep_zero : gridStep 0 = 2 * unitsPerOne := by
  unfold gridStep
  rw [show tenPow (0 : Int).toNat = 1 from rfl, Nat.one_mul]

/-- On the grid of the whole numbers the number itself is the last point up
    to it. -/
theorem pointBelow_zero (hle : n ≤ 2 * twoPow 52) : pointBelow (rankOfRatio n 1) 0 = n := by
  have hone : tenPow (-0 : Int).toNat = 1 := rfl
  have hscaled : 2 * (n * unitsPerOne) * 1 = n * (2 * unitsPerOne) := by
    generalize unitsPerOne = one
    ring
  unfold pointBelow
  rw [Binary64.units_rankOfRatio hle, hone, gridStep_zero, hscaled, ← gridStep_zero]
  exact Nat.mul_div_cancel _ (gridStep_pos 0)

theorem onGrid_zero_isSome (tie : TieRule) (hpos : 0 < n) (hle : n ≤ 2 * twoPow 52) :
    (onGrid tie (rankOfRatio n 1) 0).isSome := by
  rcases onGrid_cases tie (rankOfRatio n 1) 0 with ⟨hgrid, -⟩ | ⟨hgrid, -⟩ | ⟨-, hbelow, -⟩
  · rw [hgrid, Option.isSome_some]
  · rw [hgrid, Option.isSome_some]
  · -- The magnitude is a point, and fits.
    have hrank := Binary64.rankOfRatio_lt hpos hle
    have hbefore : units (rankOfRatio n 1 - 1) < units (rankOfRatio n 1) :=
      Binary64.units_strictMono (by omega)
    have hone : tenPow (-0 : Int).toNat = 1 := rfl
    have hunits := Binary64.units_rankOfRatio hle
    refine absurd (.inl ?_) hbelow
    rw [pointBelow_zero hle, hone, gridStep_zero, Nat.mul_one, Nat.mul_left_comm, ← hunits]
    omega

theorem orderOfRatio_whole (hpos : 0 < n) :
    orderOfRatio (n * unitsPerOne) unitsPerOne = digitCount n := by
  unfold orderOfRatio
  rw [if_pos (Nat.le_mul_of_pos_left _ hpos), Nat.mul_div_cancel _ unitsPerOne_pos]

/-- The decimal that is found for a whole number below `2 ^ 53` is the
    number itself. -/
theorem isInteger_shortest_of_lt (tie : TieRule) (hpos : 0 < n) (hlt : n < 2 * twoPow 52) :
    (shortest tie (rankOfRatio n 1)).IsInteger n := by
  have hcount : digitCount n ≤ 16 :=
    (Nat.length_toDigits_le_iff (by decide) (by decide)).mpr (hlt.trans_le (by decide))
  have hcount' : 0 < digitCount n := Nat.length_toDigits_pos
  have horder : orderOfRatio (units (rankOfRatio n 1)) unitsPerOne = digitCount n := by
    rw [Binary64.units_rankOfRatio hlt.le, orderOfRatio_whole hpos]
  have hlast : (digitCount n : Int) - 1 - ((digitCount n - 1 : Nat) : Int) = 0 := by omega
  have hfound := onGrid_zero_isSome tie hpos hlt.le
  rw [← hlast] at hfound
  obtain ⟨d, index, hd, hindex, hgrid⟩ :=
    firstOnGrids_eq_some (show digitCount n - 1 < 17 by omega) hfound
  obtain ⟨hrounds, hexponent, -⟩ := onGrid_eq_some hgrid
  have hinteger : d.IsInteger (d.coefficient * tenPow d.exponent.toNat) :=
    ⟨by omega, rfl⟩
  have hsame : d.coefficient * tenPow d.exponent.toNat = n := by
    apply Binary64.eq_of_rankOfRatio_eq hlt
    rw [Binary64.rankOfRatio_eq_iff Nat.one_pos, Nat.cast_one, div_one, ← hinteger.inUnits_eq]
    exact hrounds
  rw [hsame] at hinteger
  unfold shortest
  dsimp only
  rw [horder, hd, Option.getD_some]
  exact hinteger.trim

/-- So it is for `2 ^ 53`, though the next whole number is rounded to it. -/
theorem isInteger_shortest (hpos : 0 < n) (hle : n ≤ 2 * twoPow 52) :
    (shortest .away (rankOfRatio n 1)).IsInteger n := by
  rcases hle.lt_or_eq with hlt | rfl
  · exact isInteger_shortest_of_lt .away hpos hlt
  · have hshortest : shortest .away (rankOfRatio (2 * twoPow 52) 1) = ⟨9007199254740992, 0⟩ := by
      decide +kernel
    rw [hshortest]
    exact ⟨le_rfl, rfl⟩

end Decimal

/-! ## Section 4: The double of an integer -/

namespace Binary64

variable {n : Int}

/-- Integers of 64 bits are rounded to finite doubles. -/
theorem exists_ofInt (hle : n.natAbs ≤ twoPow 64) : ∃ rank : Fin rankCount,
    rank.val = rankOfRatio n.natAbs 1 ∧ ofInt n = .finite (n < 0) rank := by
  have hlt : rankOfRatio n.natAbs 1 < rankCount :=
    lt_rankCount_of_units_le (show 64 ≤ 1023 by decide) (units_rankOfRatio_le hle)
  exact ⟨⟨_, hlt⟩, rfl, ofRatio_eq rfl _⟩

theorem signed_natAbs (n : Int) : signed (n < 0) (n.natAbs : ℚ) = n := by
  have habs : (n.natAbs : ℚ) = |(n : ℚ)| := by rw [Nat.cast_natAbs, Int.cast_abs]
  unfold signed
  rw [habs]
  by_cases hneg : n < 0
  · rw [if_pos (decide_eq_true hneg), abs_of_neg (by exact_mod_cast hneg), neg_neg]
  · rw [if_neg (by simpa using hneg), abs_of_nonneg (by exact_mod_cast not_lt.mp hneg)]

theorem isNearest_ofInt (hle : n.natAbs ≤ twoPow 64) : IsNearest n (ofInt n) := by
  obtain ⟨rank, hrank, heq⟩ := exists_ofInt hle
  have hrounds : Rounds ((n.natAbs : ℚ) * unitsPerOne) rank.val := by
    have hself := rounds_rankOfRatio n.natAbs Nat.one_pos
    rw [Nat.cast_one, div_one, ← hrank] at hself
    exact hself
  rw [heq, ← signed_natAbs n]
  exact hrounds.isNearest (Nat.cast_nonneg _) _

end Binary64

/-! ## Section 5: Integers in documents -/

namespace Document

/-- The document that compares an attribute with an integer. -/
def comparison (field : String) (op : Comparator) (n : Int) : Json :=
  .array [.text field, .text op.token, .integer n]

theorem read_comparison {field : String} (hfield : field ≠ "") (op : Comparator) (n : Int) :
    read (comparison field op n) = .ok (.leaf (.compare field op (.ofInt n))) := by
  have htest : Test field (.compare op) [.integer n] (.compare field op (.ofInt n)) :=
    .compare (.number rfl)
  exact read_eq_ok_iff.mpr ⟨.leaf hfield htest, show 1 ≤ nestingLimit + 1 by decide⟩

theorem readJson_comparison {n : Int} (hfits : Json.Fits64 n) {field : String}
    (hfield : field ≠ "") (op : Comparator) :
    readJson (comparison field op n).compact = .ok (.leaf (.compare field op (.ofInt n))) := by
  have hatoms {a : Json} (ha : a ∈ (comparison field op n).atoms) :
      a = .text field ∨ a = .text op.token ∨ a = .integer n := by
    simpa [comparison, Json.atoms, Json.atomsOfItems] using ha
  have hintegers : ∀ m, .integer m ∈ (comparison field op n).atoms → Json.Fits64 m := by
    intro m hm
    obtain heq | heq | heq := hatoms hm
    · cases heq
    · cases heq
    · rwa [Json.integer.inj heq]
  have hreals : ∀ x, .real x ∈ (comparison field op n).atoms → Json.Reread x := by
    intro x hx
    obtain heq | heq | heq := hatoms hx <;> cases heq
  obtain ⟨hlow, -⟩ := Json.read_compact hintegers hreals
  have htext : Json.read (comparison field op n).compact = .ok (comparison field op n) :=
    hlow (show 1 < Json.fullRoom by decide)
  unfold readJson
  rw [htext]
  exact read_comparison hfield op n

end Document

/-! ## Section 6: The encoding of an integer -/

namespace Encoder

variable {n : Int}

@[simp] theorem standard_ofInt (n : Int) : standard (.ofInt n) = encodeNumber (.ofInt n) := rfl

/-- Integers of 64 bits are within the range of the encoder. -/
theorem rankOfRatio_range {m : Nat} (hle : m ≤ twoPow 64) :
    rankOfRatio m 1 = 0 ∨ (leastRank ≤ rankOfRatio m 1 ∧ rankOfRatio m 1 < greatestRank) := by
  rcases Nat.eq_zero_or_pos m with rfl | hpos
  · exact .inl (Json.rankOfRatio_zero Nat.one_pos)
  · have hleast : leastRank ≤ rankOfRatio 1 1 := by decide +kernel
    have hgreatest : rankOfRatio (twoPow 64) 1 < greatestRank := by decide +kernel
    exact .inr ⟨hleast.trans (Binary64.rankOfRatio_mono hpos),
      (Binary64.rankOfRatio_mono hle).trans_lt hgreatest⟩

/-- Integers of 64 bits are encoded. -/
theorem exists_represents_ofInt (hle : n.natAbs ≤ twoPow 64) :
    ∃ k : PlainNumeral, standard (.ofInt n) = .ok (.numeral k.text) ∧
      Represents k (.ofInt n) := by
  obtain ⟨rank, hrank, heq⟩ := Binary64.exists_ofInt hle
  rw [standard_ofInt, heq]
  apply exists_represents
  rw [hrank]
  exact rankOfRatio_range hle

/-- Up to `2 ^ 53` the digits of an integer are its own. -/
theorem standard_ofInt_eq (hle : n.natAbs ≤ 2 * twoPow 52) :
    standard (.ofInt n) = .ok (.numeral (toString n)) := by
  have hle' : n.natAbs ≤ twoPow 64 := hle.trans (by decide)
  obtain ⟨rank, hrank, heq⟩ := Binary64.exists_ofInt hle'
  rcases Nat.eq_zero_or_pos n.natAbs with hzero | hpos
  · obtain rfl := Int.natAbs_eq_zero.mp hzero
    decide +kernel
  · have hrange := rankOfRatio_range hle'
    have hnonzero : 0 < rank.val := by
      have hlt := Binary64.rankOfRatio_lt hpos hle
      omega
    have hdigits : (Decimal.shortest .away rank.val).positional = Nat.toDigits 10 n.natAbs := by
      rw [hrank]
      exact (Decimal.isInteger_shortest hpos hle).positional_eq hpos
    have htext : toString n = signText (n < 0) ++ String.ofList (Nat.toDigits 10 n.natAbs) := by
      rw [← String.toList_inj, Json.toList_toString, String.toList_append, String.toList_ofList]
    rw [standard_ofInt, heq, htext, ← hdigits]
    unfold encodeNumber Binary64.plain
    simp only [if_neg hnonzero.ne']
    rw [if_neg (by omega)]

/-- Doubles of one value are encoded alike: the sign of zero is not written. -/
theorem encodeNumber_eq_of_value? {x y : Binary64} {v : ℚ} (hx : x.value? = some v)
    (hy : y.value? = some v) : encodeNumber x = encodeNumber y := by
  obtain ⟨negx, rankx, rfl, rfl⟩ := Binary64.exists_of_value?_eq_some hx
  obtain ⟨negy, ranky, rfl, hsame⟩ := Binary64.exists_of_value?_eq_some hy
  have hmagnitude : magnitude rankx = magnitude ranky := by
    have habs := congrArg abs hsame
    rwa [Binary64.abs_signed, Binary64.abs_signed, abs_of_nonneg (Binary64.magnitude_nonneg _),
      abs_of_nonneg (Binary64.magnitude_nonneg _)] at habs
  obtain rfl : rankx = ranky := Fin.ext (Binary64.magnitude_strictMono.injective hmagnitude)
  by_cases hzero : rankx.val = 0
  · unfold encodeNumber
    simp only [if_pos hzero]
  · have hpos : magnitude 0 < magnitude rankx :=
      Binary64.magnitude_strictMono (Nat.pos_of_ne_zero hzero)
    rw [Binary64.magnitude_zero] at hpos
    have hsign : negx = negy := by
      by_contra hne
      obtain rfl : negx = !negy := Bool.eq_not.mpr hne
      have hdiff := Binary64.abs_signed_sub_not negy (magnitude rankx) (magnitude rankx)
      rw [hsame, sub_self, abs_zero, abs_of_pos (by linarith)] at hdiff
      linarith
    rw [hsign]

/-- Greater integers are not encoded as lesser numbers. -/
theorem value_le_of_le {m : Int} (hm : m.natAbs ≤ twoPow 64) (hn : n.natAbs ≤ twoPow 64)
    (hle : m ≤ n) {j k : PlainNumeral} (hj : standard (.ofInt m) = .ok (.numeral j.text))
    (hk : standard (.ofInt n) = .ok (.numeral k.text)) : j.value ≤ k.value := by
  have hmnearest := Binary64.isNearest_ofInt hm
  have hnnearest := Binary64.isNearest_ofInt hn
  obtain ⟨v, hv, -⟩ := id hmnearest
  obtain ⟨w, hw, -⟩ := id hnnearest
  rcases lt_trichotomy v w with hlt | rfl | hgt
  · have hjnearest : IsNearest j.value (.ofInt m) := (represents_of_standard hj).nearest
    have hknearest : IsNearest k.value (.ofInt n) := (represents_of_standard hk).nearest
    exact (hjnearest.lt_of_value?_lt hknearest hv hw hlt).le
  · rw [standard_ofInt, encodeNumber_eq_of_value? hv hw, ← standard_ofInt, hk] at hj
    have htext := AttributeValue.numeral.inj (Except.ok.inj hj)
    rw [PlainNumeral.text_injective htext]
  · have hless : (n : ℚ) < m := hnnearest.lt_of_value?_lt hmnearest hw hv hgt
    exact absurd hle (not_le.mpr (by exact_mod_cast hless))

/-- **Integers survive.** Every integer of 64 bits is read from a document as
    the operand that the integer itself becomes, which is the double nearest
    to it, and that operand is encoded. Up to `2 ^ 53` it is encoded as the
    digits of the integer, and a lesser integer is never encoded as a
    greater number. -/
theorem integers_encoded {n : Int} (hn : Json.Fits64 n) :
    (∃ x, Scalar.ofInt n = .number x ∧ IsNearest n x) ∧
    (∀ field, Document.readScalar field (.integer n) = .ok (.ofInt n)) ∧
    (∀ field op, field ≠ "" → Document.readJson (Document.comparison field op n).compact =
      .ok (.leaf (.compare field op (.ofInt n)))) ∧
    (∃ k : PlainNumeral, standard (.ofInt n) = .ok (.numeral k.text)) ∧
    (|n| ≤ 2 ^ 53 → standard (.ofInt n) = .ok (.numeral (toString n))) ∧
    ∀ m, Json.Fits64 m → m ≤ n → ∀ j k : PlainNumeral,
      standard (.ofInt m) = .ok (.numeral j.text) →
      standard (.ofInt n) = .ok (.numeral k.text) → j.value ≤ k.value := by
  have hle {m : Int} (hfits : Json.Fits64 m) : m.natAbs ≤ twoPow 64 := by
    have hpow : twoPow 64 = 18446744073709551616 := rfl
    unfold Json.Fits64 at hfits
    omega
  refine ⟨⟨_, rfl, Binary64.isNearest_ofInt (hle hn)⟩, fun _ => rfl,
    fun field op hfield => Document.readJson_comparison hn hfield op, ?_, ?_, ?_⟩
  · obtain ⟨k, hk, -⟩ := exists_represents_ofInt (hle hn)
    exact ⟨k, hk⟩
  · intro hsmall
    have hpow : 2 * twoPow 52 = 9007199254740992 := rfl
    apply standard_ofInt_eq
    rw [abs_le] at hsmall
    omega
  · intro m hm hmn j k hj hk
    exact value_le_of_le (hle hm) (hle hn) hmn hj hk

/-- The greatest integer of 64 bits is encoded as a round number above it,
    the least whose digits are its own as itself. -/
theorem integers_encoded_top :
    let top : Int := 18446744073709551615
    let exact : Int := -9007199254740992
    Document.readJson (Document.comparison "n" .le top).compact =
        .ok (.leaf (.compare "n" .le (.ofInt top))) ∧
      standard (.ofInt top) = .ok (.numeral "18446744073709552000") ∧
      standard (.ofInt exact) = .ok (.numeral "-9007199254740992") ∧
      ∃ j k : PlainNumeral, standard (.ofInt exact) = .ok (.numeral j.text) ∧
        standard (.ofInt top) = .ok (.numeral k.text) ∧ j.value ≤ k.value := by
  intro top exact
  have htop : Json.Fits64 top := ⟨by decide, by decide⟩
  have hexact : Json.Fits64 exact := ⟨by decide, by decide⟩
  obtain ⟨-, -, hread, ⟨k, hk⟩, -, hordered⟩ := integers_encoded htop
  obtain ⟨-, -, -, ⟨j, hj⟩, hdigits, -⟩ := integers_encoded hexact
  refine ⟨hread "n" .le (by decide), by decide +kernel, hdigits (by decide), j, k, hj, hk, ?_⟩
  exact hordered exact hexact (by decide) j k hj hk

end Encoder
end CondExpr
