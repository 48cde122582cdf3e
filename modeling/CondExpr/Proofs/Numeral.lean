import CondExpr.Json.Reader
import CondExpr.Number.Notation
import CondExpr.Proofs.Run
import CondExpr.Proofs.Shortest

/-! # Numerals and their readers

  A numeral is a run of digits with perhaps a point and more digits, and
  perhaps an exponent. It is written in one way and read in two: the number
  reader takes the nearest double, and the reader of JSON text collects a
  significand and an exponent. Both find the coefficient and the exponent
  that the numeral was made of.

  The data notation of a double is a numeral of the shortest decimal, so
  the number reader finds the double again.
-/

namespace CondExpr

/-! ## Section 1: Runs of digits -/

/-- All characters are decimal digits. -/
def AllDigits (cs : List Char) : Prop := ∀ c ∈ cs, c.isDigit = true

theorem toNat_of_isDigit {c : Char} (h : c.isDigit = true) : 48 ≤ c.toNat ∧ c.toNat ≤ 57 := by
  unfold Char.isDigit at h
  simp only [Bool.and_eq_true, decide_eq_true_eq] at h
  exact h

theorem allDigits_toDigits (n : Nat) : AllDigits (Nat.toDigits 10 n) := fun _ hc =>
  Nat.isDigit_of_mem_toDigits (by decide) (by decide) hc

theorem allDigits_zeros (count : Nat) : AllDigits (List.replicate count '0') := by
  intro c hc
  rw [List.eq_of_mem_replicate hc]
  rfl

theorem AllDigits.append {cs ds : List Char} (hcs : AllDigits cs) (hds : AllDigits ds) :
    AllDigits (cs ++ ds) := by
  intro c hc
  rcases List.mem_append.mp hc with hc | hc
  · exact hcs c hc
  · exact hds c hc

/-- A text that digits begin begins with a digit. -/
theorem AllDigits.head?_append {cs : List Char} (hcs : AllDigits cs) (hne : cs ≠ [])
    (rest : List Char) : (cs ++ rest).head?.any Char.isDigit = true := by
  obtain ⟨first, others, rfl⟩ := List.exists_cons_of_ne_nil hne
  exact hcs first List.mem_cons_self

@[simp] theorem digitsValue_toDigits (n : Nat) : digitsValue (Nat.toDigits 10 n) = n :=
  Nat.ofDigitChars_toDigits (by decide) (by decide)

/-- Zeros in front of a numeral do not count. -/
theorem digitsValue_zeros_append (count : Nat) (cs : List Char) :
    digitsValue (List.replicate count '0' ++ cs) = digitsValue cs := by
  unfold digitsValue
  rw [Nat.ofDigitChars_append, Nat.ofDigitChars_replicate_zero, Nat.mul_zero]

/-- Zeros behind a numeral multiply it. -/
theorem digitsValue_append_zeros (cs : List Char) (count : Nat) :
    digitsValue (cs ++ List.replicate count '0') = digitsValue cs * 10 ^ count := by
  unfold digitsValue
  rw [Nat.ofDigitChars_append, Nat.ofDigitChars_replicate_zero, Nat.mul_comm]

/-- The first digit of a positive number is not a zero. -/
theorem head_toDigits_ne {n : Nat} (hpos : 0 < n) : (Nat.toDigits 10 n).head? ≠ some '0' := by
  have hdigit : ∀ d < 10, 0 < d → Nat.digitChar d ≠ '0' := by decide
  induction n using Nat.strongRecOn with
  | ind n ih =>
    rw [Nat.toDigits_eq_if (by decide)]
    split
    · rename_i hlt
      intro hhead
      exact hdigit n hlt hpos (Option.some.inj hhead)
    · rename_i hge
      have hfront := ih (n / 10) (by omega) (by omega)
      rw [List.head?_append_of_ne_nil _ Nat.toDigits_ne_nil]
      exact hfront

theorem le_ofDigitChars (cs : List Char) (start : Nat) : start ≤ Nat.ofDigitChars 10 cs start := by
  induction cs generalizing start with
  | nil => exact Nat.le_refl _
  | cons c cs ih =>
    rw [Nat.ofDigitChars_cons]
    exact Nat.le_trans (by omega) (ih _)

/-- Digits that come to a number below the limit are all taken. -/
theorem takeBelow_all {limit sum : Nat} {digits : List Char} (count : Nat)
    (hlt : Nat.ofDigitChars 10 digits sum < limit) :
    Json.takeBelow limit digits sum count =
      (Nat.ofDigitChars 10 digits sum, count + digits.length) := by
  induction digits generalizing sum count with
  | nil => rfl
  | cons digit digits ih =>
    rw [Nat.ofDigitChars_cons] at hlt ⊢
    have hcomm : sum * 10 + (digit.toNat - 48) = 10 * sum + (digit.toNat - '0'.toNat) := by
      rw [Nat.mul_comm]
      rfl
    have hsum : 10 * sum + (digit.toNat - '0'.toNat) < limit :=
      Nat.lt_of_le_of_lt (le_ofDigitChars digits _) hlt
    unfold Json.takeBelow
    dsimp only
    rw [hcomm, if_pos hsum, ih (count + 1) hlt, List.length_cons, Nat.add_right_comm,
      Nat.add_assoc count]

/-! ## Section 2: Numerals -/

/-- A numeral as it stands in JSON text, with a point or an exponent: no
    superfluous zero in front, and digits on both sides of a point. -/
structure Numeral where
  /-- The digits before the point. -/
  whole : List Char
  /-- The digits after the point, if there is one. -/
  fraction : List Char
  /-- The written exponent. -/
  exponent? : Option Int
  whole_digits : AllDigits whole
  whole_ne_nil : whole ≠ []
  whole_head : whole = ['0'] ∨ whole.head? ≠ some '0'
  fraction_digits : AllDigits fraction
  marked : fraction ≠ [] ∨ exponent?.isSome

namespace Numeral

/-- The point and the digits after it. -/
def fractionChars (n : Numeral) : List Char := if n.fraction = [] then [] else '.' :: n.fraction

/-- The written exponent, with its sign. -/
def exponentChars (n : Numeral) : List Char :=
  match n.exponent? with
  | none => []
  | some e => 'e' :: (if e < 0 then '-' else '+') :: Nat.toDigits 10 e.natAbs

/-- The written numeral. -/
def chars (n : Numeral) : List Char := n.whole ++ n.fractionChars ++ n.exponentChars

/-- The decimal that is written. -/
def decimal (n : Numeral) : Decimal :=
  ⟨digitsValue (n.whole ++ n.fraction), n.exponent?.getD 0 - n.fraction.length⟩

end Numeral

/-- Neither a digit nor the beginning of a fraction or an exponent. -/
def EndsNumeral (rest : List Char) : Prop :=
  Stops (fun c => c.isDigit || c = '.' || c = 'e' || c = 'E') rest

theorem EndsNumeral.stops {rest : List Char} (h : EndsNumeral rest) : Stops Char.isDigit rest := by
  intro c hc
  have hclass := h c hc
  simp only [Bool.or_eq_false_iff] at hclass
  exact hclass.1.1.1

theorem EndsNumeral.head_ne {rest : List Char} (h : EndsNumeral rest) :
    rest.head? ≠ some '.' ∧ rest.head? ≠ some 'e' ∧ rest.head? ≠ some 'E' := by
  refine ⟨?_, ?_, ?_⟩ <;> intro hc <;> exact absurd (h _ hc) (by decide)

theorem endsNumeral_nil : EndsNumeral [] := stops_nil

namespace Numeral

theorem stops_exponentChars (n : Numeral) {rest : List Char} (hrest : Stops Char.isDigit rest) :
    Stops Char.isDigit (n.exponentChars ++ rest) := by
  unfold exponentChars
  cases n.exponent? with
  | none => exact hrest
  | some e => exact stops_cons.mpr rfl

theorem stops_fractionChars (n : Numeral) {rest : List Char} (hrest : Stops Char.isDigit rest) :
    Stops Char.isDigit (n.fractionChars ++ rest) := by
  unfold fractionChars
  split
  · exact hrest
  · exact stops_cons.mpr rfl

/-! ## Section 3: The number reader -/

theorem spanDigits_run {run rest : List Char} (hrun : AllDigits run)
    (hrest : Stops Char.isDigit rest) : spanDigits (run ++ rest) = (run, rest) := by
  unfold spanDigits
  rw [List.span_eq_takeWhile_dropWhile, takeWhile_run hrun hrest, dropWhile_run hrun hrest]

theorem head_chars (n : Numeral) : n.chars.head?.any Char.isDigit = true := by
  unfold chars
  rw [List.append_assoc]
  exact n.whole_digits.head?_append n.whole_ne_nil _

end Numeral

/-! ## Section 4: The reader of JSON text -/

namespace Json

theorem Cursor.takeDigits_run {run rest : List Char} (hrun : AllDigits run)
    (hrest : Stops Char.isDigit rest) (offset : Nat) :
    (Cursor.mk (run ++ rest) offset).takeDigits = (run, ⟨rest, offset + run.length⟩) := by
  unfold Cursor.takeDigits
  simp only [takeWhile_run hrun hrest, List.drop_left]

theorem Cursor.atExponent_eq_false {rest : List Char} (hrest : EndsNumeral rest) (offset : Nat) :
    (Cursor.mk rest offset).atExponent = false := by
  obtain ⟨-, hlower, hupper⟩ := hrest.head_ne
  simp [Cursor.atExponent, Cursor.at, hlower, hupper]

@[simp] theorem Cursor.advance_cons (c : Char) (rest : List Char) (offset : Nat) :
    (Cursor.mk (c :: rest) offset).advance = ⟨rest, offset + c.utf8Size⟩ := rfl

@[simp] theorem Cursor.at_cons (c char : Char) (rest : List Char) (offset : Nat) :
    (Cursor.mk (c :: rest) offset).at char = decide (c = char) := by
  simp [Cursor.at]

/-- An exponent that is not too large is added to the one there is. -/
theorem readExponent_chars (negative : Bool) (significand : Nat) (exponent : Int) {e : Int}
    (hlimit : e.natAbs < exponentLimit) {rest : List Char} (hrest : Stops Char.isDigit rest)
    (offset : Nat) : ∃ offset', readExponent negative significand exponent
        ⟨'e' :: (if e < 0 then '-' else '+') :: (Nat.toDigits 10 e.natAbs ++ rest), offset⟩ =
      finishNumber negative significand (exponent + e) ⟨rest, offset'⟩ := by
  have hdigits := Cursor.takeDigits_run (allDigits_toDigits e.natAbs) hrest
  have htaken : takeBelow exponentLimit (Nat.toDigits 10 e.natAbs) 0 0 =
      (e.natAbs, (Nat.toDigits 10 e.natAbs).length) := by
    rw [takeBelow_all 0 (by rw [Nat.ofDigitChars_ten_toDigits]; exact hlimit),
      Nat.ofDigitChars_ten_toDigits, Nat.zero_add]
  obtain ⟨first, others, hcons⟩ := List.exists_cons_of_ne_nil (@Nat.toDigits_ne_nil e.natAbs 10)
  have hfirst : first.isDigit = true :=
    allDigits_toDigits e.natAbs first (hcons ▸ List.mem_cons_self)
  rw [hcons, List.cons_append] at hdigits
  rw [hcons] at htaken
  rw [hcons, List.cons_append]
  unfold readExponent
  by_cases hneg : e < 0
  · have hsum : exponent - e.natAbs = exponent + e := by omega
    simp only [if_pos hneg, Cursor.advance_cons, Cursor.at_cons, decide_true, Bool.true_or, if_true,
      hfirst, Bool.not_true, Bool.false_eq_true, if_false, hdigits, htaken, Nat.lt_irrefl, hsum]
    exact ⟨_, rfl⟩
  · have hsum : exponent + e.natAbs = exponent + e := by omega
    simp only [if_neg hneg, Cursor.advance_cons, Cursor.at_cons, decide_true, Bool.or_true, if_true,
      hfirst, Bool.not_true, Bool.false_eq_true, if_false, hdigits, htaken, Nat.lt_irrefl, hsum,
      show decide ('+' = '-') = false from rfl]
    exact ⟨_, rfl⟩

/-- Whole digits that fit the significand are read up to their end. -/
theorem readNumber_run (negative : Bool) {whole rest : List Char} (hdigits : AllDigits whole)
    (hne : whole ≠ []) (hhead : whole = ['0'] ∨ whole.head? ≠ some '0')
    (hlimit : digitsValue whole < significandLimit) (hrest : Stops Char.isDigit rest)
    (offset : Nat) : readNumber negative ⟨whole ++ rest, offset⟩ =
      let after : Cursor := ⟨rest, offset + whole.length⟩
      if after.at '.' then readDecimals negative (digitsValue whole) 0 after
      else if after.atExponent then readExponent negative (digitsValue whole) 0 after
      else .ok (ofInteger negative (digitsValue whole), after) := by
  have hrun := Cursor.takeDigits_run hdigits hrest offset
  have htaken : takeBelow significandLimit whole 0 0 = (digitsValue whole, whole.length) := by
    rw [takeBelow_all 0 hlimit, Nat.zero_add]
    rfl
  obtain ⟨first, others, rfl⟩ := List.exists_cons_of_ne_nil hne
  have hfirst : first.isDigit = true := hdigits first List.mem_cons_self
  have hzero : (decide (first = '0') &&
      (Cursor.mk (others ++ rest) (offset + first.utf8Size)).atDigit) = false := by
    rcases hhead with hzero | hnonzero
    · -- After a single zero the digits are at their end.
      obtain ⟨rfl, rfl⟩ := List.cons_eq_cons.mp hzero
      rw [List.nil_append]
      cases rest with
      | nil => rfl
      | cons c rest => exact stops_cons.mp hrest
    · have hne : first ≠ '0' := fun heq => hnonzero (congrArg some heq)
      rw [decide_eq_false hne, Bool.false_and]
  rw [List.cons_append] at hrun ⊢
  unfold readNumber
  simp only [hfirst, Bool.not_true, Bool.false_eq_true, if_false, Cursor.advance_cons, hzero, hrun,
    htaken, Nat.sub_self, if_true, Nat.cast_zero]

/-- Decimals that fit the significand are read up to their end. -/
theorem readDecimals_run (negative : Bool) {significand : Nat} (exponent : Int)
    {fraction rest : List Char} (hdigits : AllDigits fraction) (hne : fraction ≠ [])
    (hlimit : Nat.ofDigitChars 10 fraction significand < significandLimit)
    (hrest : Stops Char.isDigit rest) (offset : Nat) :
    readDecimals negative significand exponent ⟨'.' :: (fraction ++ rest), offset⟩ =
      let after : Cursor := ⟨rest, offset + '.'.utf8Size + fraction.length⟩
      if after.atExponent then
        readExponent negative (Nat.ofDigitChars 10 fraction significand)
          (exponent - fraction.length) after
      else finishNumber negative (Nat.ofDigitChars 10 fraction significand)
        (exponent - fraction.length) after := by
  have hrun := Cursor.takeDigits_run hdigits hrest (offset + '.'.utf8Size)
  have htaken := takeBelow_all 0 hlimit
  have hempty : fraction.isEmpty = false := List.isEmpty_eq_false_iff.mpr hne
  unfold readDecimals
  simp only [Cursor.advance_cons, hrun, hempty, Bool.false_eq_true, if_false, htaken, Nat.zero_add]

/-- A numeral is read as its coefficient and its exponent. -/
theorem readNumber_chars (n : Numeral) (negative : Bool)
    (hcoefficient : n.decimal.coefficient < significandLimit)
    (hexponent : (n.exponent?.getD 0).natAbs < exponentLimit) {rest : List Char}
    (hrest : EndsNumeral rest) (offset : Nat) :
    ∃ offset', readNumber negative ⟨n.chars ++ rest, offset⟩ =
      finishNumber negative n.decimal.coefficient n.decimal.exponent ⟨rest, offset'⟩ := by
  have hafter := n.stops_exponentChars hrest.stops
  have hsplit : n.chars ++ rest = n.whole ++ (n.fractionChars ++ (n.exponentChars ++ rest)) := by
    simp only [Numeral.chars, List.append_assoc]
  have hall : digitsValue (n.whole ++ n.fraction) =
      Nat.ofDigitChars 10 n.fraction (digitsValue n.whole) := Nat.ofDigitChars_append _
  -- What comes after the digits, whatever has been read of them.
  have hfinish (significand : Nat) (places : Int) (offset : Nat) : ∃ offset',
      (if (Cursor.mk (n.exponentChars ++ rest) offset).atExponent then
          readExponent negative significand places ⟨n.exponentChars ++ rest, offset⟩
        else finishNumber negative significand places ⟨n.exponentChars ++ rest, offset⟩) =
        finishNumber negative significand (places + n.exponent?.getD 0) ⟨rest, offset'⟩ := by
    unfold Numeral.exponentChars
    cases hwritten : n.exponent? with
    | none =>
      rw [List.nil_append, Cursor.atExponent_eq_false hrest, Option.getD_none, Int.add_zero]
      exact ⟨offset, rfl⟩
    | some e =>
      rw [hwritten] at hexponent
      exact readExponent_chars negative significand places hexponent hrest.stops offset
  have hle : digitsValue n.whole ≤ n.decimal.coefficient := by
    unfold Numeral.decimal
    rw [hall]
    exact le_ofDigitChars _ _
  rw [hsplit, readNumber_run negative n.whole_digits n.whole_ne_nil n.whole_head
    (Nat.lt_of_le_of_lt hle hcoefficient) (n.stops_fractionChars hafter)]
  unfold Numeral.decimal at hcoefficient ⊢
  rw [hall] at hcoefficient ⊢
  dsimp only at hcoefficient ⊢
  by_cases hnone : n.fraction = []
  · -- Without a fraction it is the exponent that makes the number a double.
    have hchars : n.fractionChars = [] := if_pos hnone
    obtain ⟨e, hwritten⟩ := Option.isSome_iff_exists.mp (n.marked.resolve_left (absurd hnone))
    have hexponentChars : n.exponentChars =
        'e' :: (if e < 0 then '-' else '+') :: Nat.toDigits 10 e.natAbs := by
      rw [Numeral.exponentChars, hwritten]
    obtain ⟨offset', hoffset⟩ := hfinish (digitsValue n.whole) 0 (offset + n.whole.length)
    have hat :
        (Cursor.mk (n.exponentChars ++ rest) (offset + n.whole.length)).atExponent = true := by
      rw [hexponentChars]
      rfl
    rw [if_pos hat] at hoffset
    have hpoint :
        (Cursor.mk (n.exponentChars ++ rest) (offset + n.whole.length)).at '.' = false := by
      rw [hexponentChars]
      rfl
    refine ⟨offset', ?_⟩
    rw [hchars, List.nil_append, if_neg (by rw [hpoint]; exact Bool.false_ne_true), if_pos hat,
      hoffset, hnone]
    congr 1
    exact (Int.zero_add _).trans (Int.sub_zero _).symm
  · have hchars : n.fractionChars = '.' :: n.fraction := if_neg hnone
    rw [hchars, List.cons_append, Cursor.at_cons, if_pos (decide_eq_true rfl),
      readDecimals_run negative 0 n.fraction_digits hnone hcoefficient hafter]
    obtain ⟨offset', hoffset⟩ := hfinish (Nat.ofDigitChars 10 n.fraction (digitsValue n.whole))
      (0 - n.fraction.length) (offset + n.whole.length + '.'.utf8Size + n.fraction.length)
    refine ⟨offset', hoffset.trans ?_⟩
    congr 1
    omega

end Json

/-! ## Section 5: Data notation -/

namespace Decimal

variable {d : Decimal}

theorem digits_ne_nil (d : Decimal) : d.digits ≠ [] := Nat.toDigits_ne_nil

theorem digitsValue_digits (d : Decimal) : digitsValue d.digits = d.coefficient :=
  digitsValue_toDigits _

/-- Scientific notation is a numeral of the decimal. -/
theorem exists_numeral_scientific (hpos : 0 < d.coefficient) :
    ∃ n : Numeral, d.scientific ((d.digits.length : Int) + d.exponent - 1) = n.chars ∧
      n.decimal = d ∧ n.exponent? = some ((d.digits.length : Int) + d.exponent - 1) := by
  have hdigits : AllDigits d.digits := allDigits_toDigits _
  have hhead : d.digits.head? ≠ some '0' := head_toDigits_ne hpos
  have hvalue := d.digitsValue_digits
  obtain ⟨first, others, hcons⟩ := List.exists_cons_of_ne_nil d.digits_ne_nil
  unfold scientific
  rw [hcons] at hdigits hhead hvalue ⊢
  refine ⟨⟨[first], others, some _, ?_, ?_, ?_, ?_, Or.inr rfl⟩, ?_, ?_, rfl⟩
  · intro c hc
    exact hdigits c (List.mem_cons.mpr (Or.inl (List.mem_singleton.mp hc)))
  · exact List.cons_ne_nil _ _
  · exact Or.inr hhead
  · exact fun c hc => hdigits c (List.mem_cons_of_mem _ hc)
  · unfold Numeral.chars Numeral.fractionChars Numeral.exponentChars
    cases others <;> rfl
  · unfold Numeral.decimal
    rw [List.singleton_append, hvalue]
    have hexponent : (((first :: others).length : Int) + d.exponent - 1) - others.length =
        d.exponent := by
      rw [List.length_cons]
      omega
    dsimp only [Option.getD_some]
    rw [hexponent]

/-- With a negative exponent positional notation is a numeral of the
    decimal. -/
theorem exists_numeral_positional (hpos : 0 < d.coefficient) (hneg : d.exponent < 0) :
    ∃ n : Numeral, d.positional = n.chars ∧ n.decimal = d ∧ n.exponent? = none := by
  have hdigits : AllDigits d.digits := allDigits_toDigits _
  have hhead : d.digits.head? ≠ some '0' := head_toDigits_ne hpos
  have hvalue := d.digitsValue_digits
  have hplaces : (-d.exponent).toNat ≠ 0 := by omega
  have hwhole : -((-d.exponent).toNat : Int) = d.exponent := by omega
  unfold positional
  simp only [if_neg hplaces]
  generalize (-d.exponent).toNat = places at *
  split
  · -- The point stands between two digits.
    rename_i hinside
    have hlen : (d.digits.drop (d.digits.length - places)).length = places := by
      rw [List.length_drop]
      omega
    have hfraction : d.digits.drop (d.digits.length - places) ≠ [] := by
      intro hnil
      rw [hnil] at hlen
      exact hplaces hlen.symm
    refine ⟨⟨d.digits.take (d.digits.length - places), d.digits.drop (d.digits.length - places),
      none, ?_, ?_, Or.inr ?_, ?_, Or.inl hfraction⟩, ?_, ?_, rfl⟩
    · exact fun c hc => hdigits c (List.mem_of_mem_take hc)
    · intro hnil
      have hzero := List.take_eq_nil_iff.mp hnil
      have hne := d.digits_ne_nil
      grind
    · rw [List.head?_take, if_neg (by omega)]
      exact hhead
    · exact fun c hc => hdigits c (List.mem_of_mem_drop hc)
    · unfold Numeral.chars Numeral.fractionChars Numeral.exponentChars
      simp only [if_neg hfraction, List.append_nil]
    · unfold Numeral.decimal
      simp only [List.take_append_drop, hvalue, hlen, Option.getD_none, Int.zero_sub, hwhole]
  · -- Zeros stand between the point and the digits.
    rename_i houtside
    have hlen : (List.replicate (places - d.digits.length) '0' ++ d.digits).length = places := by
      rw [List.length_append, List.length_replicate]
      omega
    have hfraction : List.replicate (places - d.digits.length) '0' ++ d.digits ≠ [] :=
      List.append_ne_nil_of_right_ne_nil _ d.digits_ne_nil
    refine ⟨⟨['0'], List.replicate (places - d.digits.length) '0' ++ d.digits,
      none, allDigits_zeros 1, List.cons_ne_nil _ _, Or.inl rfl,
      (allDigits_zeros _).append hdigits, Or.inl hfraction⟩, ?_, ?_, rfl⟩
    · unfold Numeral.chars Numeral.fractionChars Numeral.exponentChars
      simp only [if_neg hfraction, List.append_nil]
      rfl
    · unfold Numeral.decimal
      dsimp only
      rw [hlen, show ['0'] = List.replicate 1 '0' from rfl, digitsValue_zeros_append,
        digitsValue_zeros_append, hvalue]
      simp only [Option.getD_none, Int.zero_sub, hwhole]

/-- A decimal without decimal places, put in tenths. -/
def withPlace (d : Decimal) : Decimal := ⟨d.coefficient * 10 ^ (d.exponent.toNat + 1), -1⟩

theorem value_withPlace {d : Decimal} (hnonneg : 0 ≤ d.exponent) : d.withPlace.value = d.value := by
  obtain ⟨e, hexponent⟩ := Int.eq_ofNat_of_zero_le hnonneg
  unfold withPlace value
  rw [hexponent, Int.toNat_natCast]
  push_cast
  rw [zpow_neg_one, zpow_natCast, pow_succ]
  ring

/-- A decimal without decimal places, as a numeral with one. -/
theorem exists_numeral_whole (hpos : 0 < d.coefficient) (hnonneg : 0 ≤ d.exponent) :
    ∃ n : Numeral, d.positional ++ ['.', '0'] = n.chars ∧
      n.decimal = d.withPlace ∧ n.exponent? = none := by
  have hdigits : AllDigits d.digits := allDigits_toDigits _
  have hhead : d.digits.head? ≠ some '0' := head_toDigits_ne hpos
  have hvalue := d.digitsValue_digits
  have hplaces : (-d.exponent).toNat = 0 := by omega
  have hzeros := digitsValue_append_zeros d.digits (d.exponent.toNat + 1)
  rw [List.replicate_succ', ← List.append_assoc, hvalue] at hzeros
  unfold positional
  rw [if_pos hplaces]
  refine ⟨⟨d.digits ++ List.replicate d.exponent.toNat '0', ['0'], none,
    hdigits.append (allDigits_zeros _), List.append_ne_nil_of_left_ne_nil d.digits_ne_nil _,
    Or.inr ?_, allDigits_zeros 1, Or.inl (List.cons_ne_nil _ _)⟩, ?_, ?_, rfl⟩
  · rw [List.head?_append_of_ne_nil _ d.digits_ne_nil]
    exact hhead
  · unfold Numeral.chars Numeral.fractionChars Numeral.exponentChars
    simp
  · unfold Numeral.decimal withPlace
    dsimp only
    rw [hzeros, Option.getD_none, List.length_singleton]
    rfl

end Decimal

namespace Binary64

/-- The decimal that the data notation of a magnitude spells. -/
def dataDecimal (rank : Nat) : Decimal :=
  if rank = 0 then ⟨0, -1⟩
  else
    let d := Decimal.shortest .even rank
    let order := (d.digits.length : Int) + d.exponent - 1
    if order < -5 ∨ 16 ≤ order ∨ d.exponent < 0 then d else d.withPlace

/-- The data notation of a magnitude is a numeral in its rounding interval,
    of at most seventeen digits that count. -/
theorem exists_numeral {rank : Nat} (hlt : rank < rankCount) :
    ∃ n : Numeral, dataDigits rank = n.chars ∧ n.decimal = dataDecimal rank ∧
      Rounds n.decimal.inUnits rank ∧ n.decimal.coefficient < Json.significandLimit ∧
      (n.exponent?.getD 0).natAbs < Json.exponentLimit := by
  unfold dataDigits dataDecimal
  rcases Nat.eq_zero_or_pos rank with rfl | hpos
  · refine ⟨⟨['0'], ['0'], none, allDigits_zeros 1, List.cons_ne_nil _ _, Or.inl rfl,
      allDigits_zeros 1, Or.inl (List.cons_ne_nil _ _)⟩, rfl, rfl, ?_, by decide, by decide⟩
    have hzero : Decimal.inUnits ⟨0, -1⟩ = units 0 := by
      rw [Decimal.inUnits, Decimal.value, units_zero, Nat.cast_zero, zero_mul, zero_mul]
    have hrounds := Rounds.self 0
    rw [← hzero] at hrounds
    exact hrounds
  · obtain ⟨hrounds, hcoefficient, -, hcount⟩ := Decimal.shortest_spec .even hpos
    obtain ⟨hlower, hupper⟩ := Decimal.shortest_order .even hpos hlt
    have hne : rank ≠ 0 := by omega
    rw [if_neg hne, if_neg hne]
    generalize Decimal.shortest .even rank = d at *
    have hlen : d.digits.length = Decimal.digitCount d.coefficient := rfl
    -- Seventeen digits fit the significand, and so does a zero that fills up.
    have hlimit : 10 ^ 17 < Json.significandLimit := by decide
    dsimp only
    split
    · -- The point would be far from the digits, so an exponent is written.
      rename_i hfar
      obtain ⟨n, hchars, hdecimal, hexponent⟩ := Decimal.exists_numeral_scientific hcoefficient
      rw [if_pos (by omega)]
      refine ⟨n, hchars, hdecimal, hdecimal ▸ hrounds, hdecimal ▸ hcount.trans hlimit, ?_⟩
      rw [hexponent, Option.getD_some]
      have hthousand : 1000 < Json.exponentLimit := by decide
      omega
    · split
      · rename_i horder hnonneg
        obtain ⟨n, hchars, hdecimal, hexponent⟩ :=
          Decimal.exists_numeral_whole hcoefficient hnonneg
        rw [if_neg (by omega)]
        refine ⟨n, hchars, hdecimal, ?_, ?_, ?_⟩
        · rw [hdecimal, Decimal.inUnits_eq_of_value_eq (Decimal.value_withPlace hnonneg)]
          exact hrounds
        · have hdigits := (Decimal.digitCount_spec hcoefficient).2
          have hle : 10 ^ (Decimal.digitCount d.coefficient) * 10 ^ (d.exponent.toNat + 1) ≤
              10 ^ 17 := by
            rw [← Nat.pow_add]
            exact Nat.pow_le_pow_right (by decide) (by omega)
          rw [hdecimal]
          calc d.coefficient * 10 ^ (d.exponent.toNat + 1)
              < 10 ^ (Decimal.digitCount d.coefficient) * 10 ^ (d.exponent.toNat + 1) :=
                Nat.mul_lt_mul_of_pos_right hdigits (Nat.pow_pos (by decide))
            _ ≤ 10 ^ 17 := hle
            _ < Json.significandLimit := hlimit
        · rw [hexponent]
          decide
      · rename_i horder hneg
        obtain ⟨n, hchars, hdecimal, hexponent⟩ :=
          Decimal.exists_numeral_positional hcoefficient (by omega)
        rw [if_pos (by omega)]
        refine ⟨n, hchars, hdecimal, hdecimal ▸ hrounds, hdecimal ▸ hcount.trans hlimit, ?_⟩
        rw [hexponent]
        decide

theorem splitSign_digits (negative : Bool) {cs : List Char}
    (hdigit : cs.head?.any Char.isDigit = true) :
    splitSign (signText negative ++ String.ofList cs).toList = (negative, cs) := by
  cases negative with
  | true => simp [signText, splitSign]
  | false =>
    simp only [signText, Bool.false_eq_true, if_false, String.empty_append, String.toList_ofList]
    unfold splitSign
    split
    · cases hdigit
    · cases hdigit
    · rfl

end Binary64
end CondExpr
