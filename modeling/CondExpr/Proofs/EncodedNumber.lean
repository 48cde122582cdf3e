import CondExpr.Proofs.Nearest
import CondExpr.Proofs.Numeral
import CondExpr.Value.Encoding
import Mathlib.Data.List.DropRight

/-! # Encoded numbers

  The standard encoder writes a number as a plain numeral: digits, and
  perhaps a point and more digits, in the one form without anything
  superfluous. The text says exactly which numeral it is, and the numeral is
  a rational number. That number has the encoded double nearest to it, it
  keeps to the range of the receiving side, which is given in powers of ten
  while the encoder compares doubles, and it grows with the double.
-/

namespace CondExpr

open Binary64 (IsNearest Rounds magnitude signed unitsPerOne)

/-! ## Section 1: Plain numerals -/

/-- A numeral without exponent in its only form: no zero in front of other
    digits, none at the end of a fraction, and no minus in front of zero. -/
@[ext]
structure PlainNumeral where
  negative : Bool
  /-- The digits before the point. -/
  whole : List Char
  /-- The digits after the point, if there is one. -/
  fraction : List Char
  whole_digits : AllDigits whole
  whole_ne_nil : whole ≠ []
  whole_head : whole = ['0'] ∨ whole.head? ≠ some '0'
  fraction_digits : AllDigits fraction
  fraction_last : fraction.getLast? ≠ some '0'
  unsigned_zero : negative = true → whole ≠ ['0'] ∨ fraction ≠ []

namespace PlainNumeral

/-- The point and the digits after it. -/
def fractionChars (n : PlainNumeral) : List Char :=
  if n.fraction = [] then [] else '.' :: n.fraction

/-- The written numeral, without its sign. -/
def chars (n : PlainNumeral) : List Char := n.whole ++ n.fractionChars

/-- The written numeral. -/
def text (n : PlainNumeral) : String := signText n.negative ++ String.ofList n.chars

/-- All digits, without the point. -/
def digits (n : PlainNumeral) : List Char := n.whole ++ n.fraction

/-- The number that is written. -/
def value (n : PlainNumeral) : ℚ :=
  signed n.negative (digitsValue n.digits / 10 ^ n.fraction.length)

/-- The digits that count: the zeros at both ends only place the point. -/
def significant (n : PlainNumeral) : List Char :=
  (n.digits.dropWhile (· = '0')).rdropWhile (· = '0')

/-- Zero, as a numeral. -/
def zero : PlainNumeral where
  negative := false
  whole := ['0']
  fraction := []
  whole_digits := allDigits_zeros 1
  whole_ne_nil := List.cons_ne_nil _ _
  whole_head := .inl rfl
  fraction_digits := fun _ hc => absurd hc List.not_mem_nil
  fraction_last := nofun
  unsigned_zero := nofun

theorem value_zero : zero.value = 0 := by
  show signed false ((0 : Nat) / 10 ^ 0) = 0
  rw [Nat.cast_zero, zero_div, Binary64.signed_zero]

theorem head_chars (n : PlainNumeral) : n.chars.head?.any Char.isDigit = true :=
  n.whole_digits.head?_append n.whole_ne_nil n.fractionChars

theorem spanDigits_chars (n : PlainNumeral) : spanDigits n.chars = (n.whole, n.fractionChars) := by
  have hstops : Stops Char.isDigit n.fractionChars := by
    unfold fractionChars
    split
    · exact stops_nil
    · exact stops_cons.mpr rfl
  exact Numeral.spanDigits_run n.whole_digits hstops

theorem fractionChars_inj {n m : PlainNumeral} (h : n.fractionChars = m.fractionChars) :
    n.fraction = m.fraction := by
  unfold fractionChars at h
  split at h <;> split at h <;> simp_all

/-- A text is one numeral at most. -/
theorem text_injective : Function.Injective text := by
  intro n m h
  have hsplit : splitSign n.text.toList = splitSign m.text.toList := by rw [h]
  unfold text at hsplit
  rw [Binary64.splitSign_digits _ n.head_chars, Binary64.splitSign_digits _ m.head_chars] at hsplit
  obtain ⟨hsign, hchars⟩ := Prod.mk.inj hsplit
  have hspan : spanDigits n.chars = spanDigits m.chars := by rw [hchars]
  rw [spanDigits_chars, spanDigits_chars] at hspan
  obtain ⟨hwhole, hfraction⟩ := Prod.mk.inj hspan
  exact PlainNumeral.ext hsign hwhole (fractionChars_inj hfraction)

end PlainNumeral

/-! ## Section 2: Positional notation -/

private theorem dropWhile_zeros {digits : List Char} (hhead : digits.head? ≠ some '0')
    (hne : digits ≠ []) (count : Nat) (rest : List Char) :
    (List.replicate count '0' ++ (digits ++ rest)).dropWhile (· = '0') = digits ++ rest := by
  obtain ⟨first, others, rfl⟩ := List.exists_cons_of_ne_nil hne
  have hfirst : first ≠ '0' := fun heq => hhead (by rw [heq, List.head?_cons])
  rw [List.dropWhile_append_of_pos (by simp), List.cons_append, List.dropWhile_cons_of_neg]
  simpa using hfirst

/-- Of digits between zeros the digits remain. -/
theorem strip_zeros {digits : List Char} (hhead : digits.head? ≠ some '0')
    (hlast : digits.getLast? ≠ some '0') (hne : digits ≠ []) (before after : Nat) :
    ((List.replicate before '0' ++ digits ++ List.replicate after '0').dropWhile
      (· = '0')).rdropWhile (· = '0') = digits := by
  rw [List.append_assoc, dropWhile_zeros hhead hne, List.rdropWhile, List.reverse_append,
    List.reverse_replicate]
  -- Read backwards the zeros behind are zeros in front.
  have hback := dropWhile_zeros (by rwa [List.head?_reverse])
    (List.reverse_ne_nil_iff.mpr hne) after []
  rw [List.append_nil] at hback
  rw [hback, List.reverse_reverse]

/-- A number that ten does not divide ends with another digit than zero. -/
theorem getLast?_toDigits_ne {n : Nat} (h : n % 10 ≠ 0) :
    (Nat.toDigits 10 n).getLast? ≠ some '0' := by
  have hdigit : ∀ d < 10, d ≠ 0 → Nat.digitChar d ≠ '0' := by decide
  rw [Nat.toDigits_eq_if (by decide)]
  split
  · rename_i hlt
    intro hlast
    exact hdigit n hlt (by omega) (Option.some.inj hlast)
  · rw [List.getLast?_concat]
    intro hlast
    exact hdigit (n % 10) (Nat.mod_lt n (by decide)) h (Option.some.inj hlast)

/-- The numeral is the positional notation of the decimal. -/
structure PlainNumeral.Spells (n : PlainNumeral) (negative : Bool) (d : Decimal) : Prop where
  negative : n.negative = negative
  chars : n.chars = d.positional
  places : n.fraction.length = (-d.exponent).toNat
  digits : ∃ before, n.digits =
    List.replicate before '0' ++ d.digits ++ List.replicate d.exponent.toNat '0'

namespace Decimal

variable {d : Decimal}

/-- Without decimal places the numeral has no fraction. -/
theorem exists_spells_whole (hpos : 0 < d.coefficient) (hexponent : (-d.exponent).toNat = 0)
    (negative : Bool) : ∃ n : PlainNumeral, n.Spells negative d := by
  have hhead : (d.digits ++ List.replicate d.exponent.toNat '0').head? ≠ some '0' := by
    rw [List.head?_append_of_ne_nil _ d.digits_ne_nil]
    exact head_toDigits_ne hpos
  refine ⟨{
      negative
      whole := d.digits ++ List.replicate d.exponent.toNat '0'
      fraction := []
      whole_digits := (allDigits_toDigits _).append (allDigits_zeros _)
      whole_ne_nil := List.append_ne_nil_of_left_ne_nil d.digits_ne_nil _
      whole_head := .inr hhead
      fraction_digits := fun _ hc => absurd hc List.not_mem_nil
      fraction_last := nofun
      unsigned_zero := fun _ => .inl fun hzero => hhead (by rw [hzero, List.head?_cons]) },
    rfl, ?_, hexponent.symm, 0, ?_⟩
  · unfold positional
    rw [if_pos hexponent]
    exact List.append_nil _
  · exact List.append_nil _

/-- With a point between the digits they are taken apart there. -/
theorem exists_spells_inside (hpos : 0 < d.coefficient) (hlast : d.coefficient % 10 ≠ 0)
    (hexponent : (-d.exponent).toNat ≠ 0) (hinside : (-d.exponent).toNat < d.digits.length)
    (negative : Bool) : ∃ n : PlainNumeral, n.Spells negative d := by
  have hdigits : AllDigits d.digits := allDigits_toDigits _
  have hzeros : d.exponent.toNat = 0 := by omega
  obtain ⟨whole, fraction, hwhole, hfraction⟩ : ∃ whole fraction,
      d.digits.take (d.digits.length - (-d.exponent).toNat) = whole ∧
        d.digits.drop (d.digits.length - (-d.exponent).toNat) = fraction := ⟨_, _, rfl, rfl⟩
  have hsplit : whole ++ fraction = d.digits := by
    rw [← hwhole, ← hfraction, List.take_append_drop]
  have hlength : fraction.length = (-d.exponent).toNat := by
    rw [← hfraction, List.length_drop]
    omega
  have hne : fraction ≠ [] := by
    intro hnil
    rw [hnil] at hlength
    exact hexponent hlength.symm
  have hwhole_ne : whole ≠ [] := by
    intro hnil
    rw [hnil, List.nil_append] at hsplit
    rw [hsplit] at hlength
    omega
  have hhead : whole.head? ≠ some '0' := by
    rw [← List.head?_append_of_ne_nil whole hwhole_ne, hsplit]
    exact head_toDigits_ne hpos
  have hend : fraction.getLast? ≠ some '0' := by
    rw [← List.getLast?_append_of_ne_nil whole hne, hsplit]
    exact getLast?_toDigits_ne hlast
  refine ⟨{
      negative
      whole
      fraction
      whole_digits := fun c hc => hdigits c (hsplit ▸ List.mem_append_left _ hc)
      whole_ne_nil := hwhole_ne
      whole_head := .inr hhead
      fraction_digits := fun c hc => hdigits c (hsplit ▸ List.mem_append_right _ hc)
      fraction_last := hend
      unsigned_zero := fun _ => .inr hne },
    rfl, ?_, hlength, 0, ?_⟩
  · unfold positional
    simp only [if_neg hexponent, if_pos hinside, hwhole, hfraction]
    unfold PlainNumeral.chars PlainNumeral.fractionChars
    rw [if_neg hne]
  · rw [hzeros, List.replicate_zero, List.nil_append, List.append_nil]
    exact hsplit

/-- With the point in front of the digits zeros fill the gap. -/
theorem exists_spells_behind (hlast : d.coefficient % 10 ≠ 0)
    (hexponent : (-d.exponent).toNat ≠ 0) (hbehind : d.digits.length ≤ (-d.exponent).toNat)
    (negative : Bool) : ∃ n : PlainNumeral, n.Spells negative d := by
  have hzeros : d.exponent.toNat = 0 := by omega
  obtain ⟨gap, hgap⟩ : ∃ gap, (-d.exponent).toNat - d.digits.length = gap := ⟨_, rfl⟩
  have hne : List.replicate gap '0' ++ d.digits ≠ [] :=
    List.append_ne_nil_of_right_ne_nil _ d.digits_ne_nil
  have hend : (List.replicate gap '0' ++ d.digits).getLast? ≠ some '0' := by
    rw [List.getLast?_append_of_ne_nil _ d.digits_ne_nil]
    exact getLast?_toDigits_ne hlast
  refine ⟨{
      negative
      whole := ['0']
      fraction := List.replicate gap '0' ++ d.digits
      whole_digits := allDigits_zeros 1
      whole_ne_nil := List.cons_ne_nil _ _
      whole_head := .inl rfl
      fraction_digits := (allDigits_zeros _).append (allDigits_toDigits _)
      fraction_last := hend
      unsigned_zero := fun _ => .inr hne },
    rfl, ?_, ?_, gap + 1, ?_⟩
  · unfold positional
    simp only [if_neg hexponent, if_neg (Nat.not_lt.mpr hbehind), hgap]
    unfold PlainNumeral.chars PlainNumeral.fractionChars
    rw [if_neg hne]
    rfl
  · show (List.replicate gap '0' ++ d.digits).length = _
    rw [List.length_append, List.length_replicate]
    omega
  · rw [hzeros, List.replicate_zero, List.append_nil, List.replicate_succ]
    rfl

/-- A decimal that ends with another digit than zero is spelled by a plain
    numeral, wherever the point is. -/
theorem exists_spells (hpos : 0 < d.coefficient) (hlast : d.coefficient % 10 ≠ 0)
    (negative : Bool) : ∃ n : PlainNumeral, n.Spells negative d := by
  by_cases hwhole : (-d.exponent).toNat = 0
  · exact exists_spells_whole hpos hwhole negative
  · by_cases hinside : (-d.exponent).toNat < d.digits.length
    · exact exists_spells_inside hpos hlast hwhole hinside negative
    · exact exists_spells_behind hlast hwhole (Nat.not_lt.mp hinside) negative

end Decimal

namespace PlainNumeral.Spells

variable {n : PlainNumeral} {negative : Bool} {d : Decimal}

theorem text_eq (h : n.Spells negative d) :
    n.text = signText negative ++ String.ofList d.positional := by
  rw [text, h.negative, h.chars]

/-- The number that is written is the decimal, with the sign. -/
theorem value_eq (h : n.Spells negative d) : n.value = signed negative d.value := by
  obtain ⟨before, hdigits⟩ := h.digits
  have hvalue : digitsValue n.digits = d.coefficient * tenPow d.exponent.toNat := by
    rw [hdigits, digitsValue_append_zeros, digitsValue_zeros_append, d.digitsValue_digits]
    rfl
  have hpower : ((10 : ℚ) ^ (-d.exponent).toNat) = (tenPow (-d.exponent).toNat : ℚ) := by
    exact_mod_cast rfl
  rw [value, h.negative, h.places, hvalue, Decimal.value, Decimal.zpow_eq_div, hpower]
  push_cast
  rw [mul_div_assoc]

/-- The digits that count are those of the coefficient. -/
theorem significant_eq (h : n.Spells negative d) (hpos : 0 < d.coefficient)
    (hlast : d.coefficient % 10 ≠ 0) : n.significant = d.digits := by
  obtain ⟨before, hdigits⟩ := h.digits
  rw [significant, hdigits]
  exact strip_zeros (head_toDigits_ne hpos) (getLast?_toDigits_ne hlast) d.digits_ne_nil before _

end PlainNumeral.Spells

/-! ## Section 3: Encoding -/

namespace Encoder

@[simp] theorem standard_number (x : Binary64) : standard (.number x) = encodeNumber x := rfl

/-- The least double that is too large. -/
def greatest : Binary64 := .finite false ⟨greatestRank, by decide +kernel⟩

/-- The least positive double that is not too small. -/
def least : Binary64 := .finite false ⟨leastRank, by decide +kernel⟩

theorem isNearest_greatest : IsNearest (10 ^ 126) greatest := by
  have hnearest : IsNearest ((tenPow 126 : Nat) / (1 : Nat)) greatest :=
    Binary64.isNearest_div Nat.one_pos rfl
  have hpower : ((tenPow 126 : Nat) : ℚ) = 10 ^ 126 := Nat.cast_pow 10 126
  rw [hpower, Nat.cast_one, div_one] at hnearest
  exact hnearest

theorem isNearest_least : IsNearest (10 ^ (-130 : Int)) least := by
  have hnearest : IsNearest ((1 : Nat) / (tenPow 130 : Nat)) least :=
    Binary64.isNearest_div (Decimal.tenPow_pos 130) rfl
  have hpower : ((tenPow 130 : Nat) : ℚ) = 10 ^ 130 := Nat.cast_pow 10 130
  rw [hpower, Nat.cast_one, one_div] at hnearest
  rw [zpow_neg]
  exact hnearest

/-- The decimal that a finite double is written as, apart from its sign. -/
theorem isNearest_shortest {rank : Fin Binary64.rankCount} (hpos : 0 < rank.val) (negative : Bool) :
    IsNearest (signed negative (Decimal.shortest .away rank).value) (.finite negative rank) := by
  obtain ⟨hrounds, -, -, -⟩ := Decimal.shortest_spec .away hpos
  have hnonneg : 0 ≤ (Decimal.shortest .away rank).value := by
    unfold Decimal.value
    positivity
  exact hrounds.isNearest hnonneg negative

/-- The shortest decimal of an admitted magnitude keeps to the range in
    powers of ten. -/
theorem shortest_range {rank : Fin Binary64.rankCount} (hleast : leastRank ≤ rank.val)
    (hgreatest : rank.val < greatestRank) :
    10 ^ (-130 : Int) ≤ (Decimal.shortest .away rank).value ∧
      (Decimal.shortest .away rank).value < 10 ^ 126 := by
  have hpos : 0 < rank.val := Nat.lt_of_lt_of_le (by decide +kernel) hleast
  have hnearest := isNearest_shortest hpos false
  constructor
  · rcases hleast.eq_or_lt with heq | hlt
    · -- At the lower bound itself the order of doubles does not tell.
      have hshortest : Decimal.shortest .away leastRank = ⟨1, -130⟩ := by decide +kernel
      rw [← heq, hshortest, Decimal.value, Nat.cast_one, one_mul]
    · have hvalues : magnitude leastRank < magnitude rank := Binary64.magnitude_strictMono hlt
      exact (isNearest_least.lt_of_value?_lt hnearest rfl rfl hvalues).le
  · have hvalues : magnitude rank < magnitude greatestRank :=
      Binary64.magnitude_strictMono hgreatest
    exact hnearest.lt_of_value?_lt isNearest_greatest rfl rfl hvalues

/-- The plain notation of a finite double that is not zero is a plain
    numeral. -/
theorem exists_plainNumeral {rank : Fin Binary64.rankCount} (hpos : 0 < rank.val)
    (negative : Bool) :
    ∃ n : PlainNumeral, (Binary64.finite negative rank).plain = n.text ∧
      n.value = signed negative (Decimal.shortest .away rank).value ∧
      n.significant.length ≤ 17 := by
  obtain ⟨-, hcoefficient, hlast, hcount⟩ := Decimal.shortest_spec .away hpos
  obtain ⟨n, hspells⟩ := Decimal.exists_spells hcoefficient hlast negative
  refine ⟨n, ?_, hspells.value_eq, ?_⟩
  · rw [hspells.text_eq, Binary64.plain]
    simp only [if_neg hpos.ne']
  · rw [hspells.significant_eq hcoefficient hlast]
    exact (Nat.length_toDigits_le_iff (by decide) (by decide)).mpr hcount

/-- What a numeral keeps of the double that it is written for. -/
structure Represents (n : PlainNumeral) (x : Binary64) : Prop where
  significant : n.significant.length ≤ 17
  nearest : IsNearest n.value x
  range : n.value = 0 ∨ (10 ^ (-130 : Int) ≤ |n.value| ∧ |n.value| < 10 ^ 126)

theorem represents_zero {negative : Bool} {rank : Fin Binary64.rankCount} (hzero : rank.val = 0) :
    Represents PlainNumeral.zero (.finite negative rank) := by
  have hrounds : Rounds (0 * unitsPerOne) rank.val := by
    have hself := Rounds.self 0
    rw [Binary64.units_zero, Nat.cast_zero] at hself
    rw [zero_mul, hzero]
    exact hself
  have hnearest := hrounds.isNearest le_rfl negative
  rw [Binary64.signed_zero, ← PlainNumeral.value_zero] at hnearest
  exact ⟨by decide, hnearest, .inl PlainNumeral.value_zero⟩

/-- Zero and the magnitudes between the bounds are written. -/
theorem exists_represents {negative : Bool} {rank : Fin Binary64.rankCount}
    (h : rank.val = 0 ∨ (leastRank ≤ rank.val ∧ rank.val < greatestRank)) :
    ∃ n : PlainNumeral, encodeNumber (.finite negative rank) = .ok (.numeral n.text) ∧
      Represents n (.finite negative rank) := by
  unfold encodeNumber
  by_cases hzero : rank.val = 0
  · refine ⟨PlainNumeral.zero, ?_, represents_zero hzero⟩
    simp only [if_pos hzero]
    rfl
  · obtain ⟨hleast, hgreatest⟩ := h.resolve_left hzero
    have hpos : 0 < rank.val := Nat.pos_of_ne_zero hzero
    obtain ⟨n, htext, hvalue, hcount⟩ := exists_plainNumeral hpos negative
    obtain ⟨hlow, hhigh⟩ := shortest_range hleast hgreatest
    have hnonneg : 0 ≤ (Decimal.shortest .away rank).value := le_trans (by positivity) hlow
    have hnearest := isNearest_shortest hpos negative
    have hin : ¬ (greatestRank ≤ rank.val ∨ rank.val < leastRank) := by omega
    rw [← hvalue] at hnearest
    refine ⟨n, ?_, hcount, hnearest, .inr ?_⟩
    · simp only [if_neg hzero, if_neg hin]
      rw [htext]
    · rw [hvalue, Binary64.abs_signed, abs_of_nonneg hnonneg]
      exact ⟨hlow, hhigh⟩

/-- Of the finite doubles those beyond the bounds are refused. -/
theorem encodeNumber_eq_error_iff {negative : Bool} {rank : Fin Binary64.rankCount}
    {e : EncodeError} :
    encodeNumber (.finite negative rank) = .error e ↔
      e = .numberOutOfRange (.finite negative rank) ∧
        (greatestRank ≤ rank.val ∨ (rank.val ≠ 0 ∧ rank.val < leastRank)) := by
  have hgreatest : 0 < greatestRank := by decide +kernel
  unfold encodeNumber
  by_cases hzero : rank.val = 0
  · simp only [if_pos hzero, reduceCtorEq, false_iff]
    omega
  · by_cases hout : greatestRank ≤ rank.val ∨ rank.val < leastRank
    · have hboth : greatestRank ≤ rank.val ∨ (rank.val ≠ 0 ∧ rank.val < leastRank) := by omega
      simp only [if_neg hzero, if_pos hout, Except.error.injEq, hboth, and_true, eq_comm]
    · simp only [if_neg hzero, if_neg hout, reduceCtorEq, false_iff]
      omega

/-- The bounds on ranks are bounds on values. -/
theorem out_of_range_iff (negative : Bool) {rank : Fin Binary64.rankCount} :
    (greatestRank ≤ rank.val ∨ (rank.val ≠ 0 ∧ rank.val < leastRank)) ↔
      (magnitude greatestRank ≤ |signed negative (magnitude rank)| ∨
        (signed negative (magnitude rank) ≠ 0 ∧
          |signed negative (magnitude rank)| < magnitude leastRank)) := by
  have habs : |signed negative (magnitude rank)| = magnitude rank := by
    rw [Binary64.abs_signed, abs_of_nonneg (Binary64.magnitude_nonneg rank)]
  have hne : signed negative (magnitude rank) ≠ 0 ↔ rank.val ≠ 0 := by
    rw [← abs_ne_zero, habs, ← Binary64.magnitude_zero,
      Binary64.magnitude_strictMono.injective.ne_iff]
  rw [hne, habs, Binary64.magnitude_strictMono.le_iff_le, Binary64.magnitude_strictMono.lt_iff_lt]

/-- A number is refused when it is not finite or out of range, and only then. -/
theorem standard_number_eq_error_iff {x : Binary64} {e : EncodeError} :
    standard (.number x) = .error e ↔
      (e = .notFinite x ∧ x.value? = none) ∨
      (e = .numberOutOfRange x ∧ ∃ v, x.value? = some v ∧
        (magnitude greatestRank ≤ |v| ∨ (v ≠ 0 ∧ |v| < magnitude leastRank))) := by
  cases x with
  | nan | infinite negative => simp [encodeNumber, Binary64.value?, eq_comm]
  | finite negative rank =>
    rw [standard_number, encodeNumber_eq_error_iff, out_of_range_iff negative]
    simp [Binary64.value?]

/-- Within the range it is written. -/
theorem exists_represents_of_value? {x : Binary64} {v : ℚ} (hx : x.value? = some v)
    (hin : v = 0 ∨ (magnitude leastRank ≤ |v| ∧ |v| < magnitude greatestRank)) :
    ∃ n : PlainNumeral, standard (.number x) = .ok (.numeral n.text) ∧ Represents n x := by
  obtain ⟨negative, rank, rfl, rfl⟩ := Binary64.exists_of_value?_eq_some hx
  have hranks : ¬ (greatestRank ≤ rank.val ∨ (rank.val ≠ 0 ∧ rank.val < leastRank)) := by
    rw [out_of_range_iff negative]
    rintro (hlarge | ⟨hne, hsmall⟩)
    · rcases hin with hzero | ⟨_, hlt⟩
      · have hgreatest : magnitude 0 < magnitude greatestRank :=
          Binary64.magnitude_strictMono (by decide +kernel)
        rw [hzero, abs_zero, ← Binary64.magnitude_zero] at hlarge
        exact absurd hgreatest (not_lt.mpr hlarge)
      · exact absurd hlt (not_lt.mpr hlarge)
    · rcases hin with hzero | ⟨hle, _⟩
      · exact hne hzero
      · exact absurd hsmall (not_lt.mpr hle)
  exact exists_represents (by omega)

/-- Whatever plain numeral a text is, it represents the double that the text
    was written for. -/
theorem represents_of_standard {x : Binary64} {n : PlainNumeral}
    (h : standard (.number x) = .ok (.numeral n.text)) : Represents n x := by
  cases x with
  | nan => cases h
  | infinite negative => cases h
  | finite negative rank =>
    by_cases hout : greatestRank ≤ rank.val ∨ (rank.val ≠ 0 ∧ rank.val < leastRank)
    · have herror : encodeNumber (.finite negative rank) = .error (.numberOutOfRange _) :=
        encodeNumber_eq_error_iff.mpr ⟨rfl, hout⟩
      cases herror.symm.trans h
    · obtain ⟨m, hm, hrepresents⟩ := @exists_represents negative rank (by omega)
      have htext := AttributeValue.numeral.inj (Except.ok.inj (h.symm.trans hm))
      rw [PlainNumeral.text_injective htext]
      exact hrepresents

/-- **Numbers are encoded faithfully.** Between the doubles nearest to
    `10 ^ 126` and to `10 ^ -130`, the first excluded and the second
    included, and at zero, the standard encoder writes a plain numeral of at
    most seventeen digits that count; the encoded double is nearest to the
    number written, which is zero or keeps to the range in powers of ten.
    Outside it refuses the number as out of range, and what is no number at
    all as not finite. Greater doubles are written as greater numbers. -/
theorem standard_number_faithful :
    ∃ top bottom : ℚ, (∃ x, IsNearest (10 ^ 126) x ∧ x.value? = some top) ∧
      (∃ x, IsNearest (10 ^ (-130 : Int)) x ∧ x.value? = some bottom) ∧
      ∀ x : Binary64,
        (∀ e, standard (.number x) = .error e ↔
          (e = .notFinite x ∧ x.value? = none) ∨
          (e = .numberOutOfRange x ∧
            ∃ v, x.value? = some v ∧ (top ≤ |v| ∨ (v ≠ 0 ∧ |v| < bottom)))) ∧
        (∀ v, x.value? = some v → (v = 0 ∨ (bottom ≤ |v| ∧ |v| < top)) →
          ∃ n : PlainNumeral, standard (.number x) = .ok (.numeral n.text) ∧ Represents n x) ∧
        ∀ (y : Binary64) v w (n m : PlainNumeral), x.value? = some v → y.value? = some w → v < w →
          standard (.number x) = .ok (.numeral n.text) →
          standard (.number y) = .ok (.numeral m.text) → n.value < m.value := by
  refine ⟨magnitude greatestRank, magnitude leastRank, ⟨greatest, isNearest_greatest, rfl⟩,
    ⟨least, isNearest_least, rfl⟩, ?_⟩
  intro x
  refine ⟨fun e => standard_number_eq_error_iff, ?_, ?_⟩
  · intro v hx hin
    exact exists_represents_of_value? hx hin
  · intro y v w n m hx hy hlt hn hm
    have hxnearest : IsNearest n.value x := (represents_of_standard hn).nearest
    have hynearest : IsNearest m.value y := (represents_of_standard hm).nearest
    exact hxnearest.lt_of_value?_lt hynearest hx hy hlt

/-- Minus zero is written as zero, and below the least of all admitted
    numbers, which is one at the 130th decimal place. -/
theorem standard_number_faithful_zero_and_least :
    ∃ n m : PlainNumeral, standard (.number (.signedZero true)) = .ok (.numeral n.text) ∧
      standard (.number least) = .ok (.numeral m.text) ∧ n.text = "0" ∧
      m.text = "0." ++ String.ofList (List.replicate 129 '0') ++ "1" ∧ n.value < m.value := by
  obtain ⟨top, bottom, ⟨x, hx, htop⟩, ⟨y, hy, hbottom⟩, hall⟩ := standard_number_faithful
  obtain rfl : magnitude greatestRank = top :=
    Option.some.inj ((isNearest_greatest.value?_eq hx).trans htop)
  obtain rfl : magnitude leastRank = bottom :=
    Option.some.inj ((isNearest_least.value?_eq hy).trans hbottom)
  have hpositive : 0 < magnitude leastRank :=
    Binary64.magnitude_zero.symm.trans_lt (Binary64.magnitude_strictMono (by decide +kernel))
  have hbounds : magnitude leastRank < magnitude greatestRank :=
    Binary64.magnitude_strictMono (by decide +kernel)
  have hzero : Binary64.value? (.signedZero true) = some 0 := by
    show some (signed true (magnitude 0)) = some 0
    rw [Binary64.magnitude_zero, Binary64.signed_zero]
  have hleast : Binary64.value? least = some (magnitude leastRank) := rfl
  obtain ⟨n, hn, -⟩ := (hall (.signedZero true)).2.1 0 hzero (.inl rfl)
  have hadmitted : magnitude leastRank ≤ |magnitude leastRank| ∧
      |magnitude leastRank| < magnitude greatestRank := by
    rw [abs_of_pos hpositive]
    exact ⟨le_rfl, hbounds⟩
  obtain ⟨m, hm, -⟩ := (hall least).2.1 _ hleast (.inr hadmitted)
  have hless : n.value < m.value := (hall _).2.2 _ _ _ _ _ hzero hleast hpositive hn hm
  have hwritten : standard (.number least) =
      .ok (.numeral ("0." ++ String.ofList (List.replicate 129 '0') ++ "1")) := by decide +kernel
  refine ⟨n, m, hn, hm, ?_, ?_, hless⟩
  · exact AttributeValue.numeral.inj (Except.ok.inj (hn.symm.trans rfl))
  · exact AttributeValue.numeral.inj (Except.ok.inj (hm.symm.trans hwritten))

end Encoder
end CondExpr
