import CondExpr.Json.Reader
import CondExpr.Json.Writer
import CondExpr.Proofs.Numeral
import CondExpr.Proofs.Results
import CondExpr.Stored.Decode

/-! # Compact text and its reader

  The reader goes over compact text without a detour: every value is read
  where it was written, up to the text behind it. What comes out is the
  value itself with two exceptions. A double is what the reader makes of its
  data notation, and with more than 127 arrays and objects inside each
  other the reader gives up.
-/

namespace CondExpr.Json

/-! ## Section 1: Outcomes -/

/-- The result of reading up to the text `rest`: what is read, or the fault. -/
def Outcome {α : Type} (result : Except FaultAt (α × Cursor)) (rest : List Char) :
    Except JsonFault α → Prop
  | .ok a => ∃ offset, result = .ok (a, ⟨rest, offset⟩)
  | .error fault => ∃ offset, result = .error ⟨fault, offset⟩

/-- One reader after another. -/
theorem Outcome.bind {α β : Type} {result : Except FaultAt (α × Cursor)} {rest rest' : List Char}
    {expected : Except JsonFault α} {next : α × Cursor → Except FaultAt (β × Cursor)}
    {expected' : α → Except JsonFault β} (h : Outcome result rest expected)
    (hnext : ∀ a offset, Outcome (next (a, ⟨rest, offset⟩)) rest' (expected' a)) :
    Outcome (result >>= next) rest' (expected >>= expected') := by
  cases expected with
  | ok a =>
    obtain ⟨offset, rfl⟩ := h
    exact hnext a offset
  | error fault =>
    obtain ⟨offset, rfl⟩ := h
    exact ⟨offset, rfl⟩

/-! ## Section 2: Blanks -/

theorem Cursor.skipBlanks_of_stops {rest : List Char} (h : Stops isJsonBlank rest) (offset : Nat) :
    (Cursor.mk rest offset).skipBlanks = ⟨rest, offset⟩ := by
  have hnone : rest.takeWhile isJsonBlank = [] := by
    have hrun := takeWhile_run (fun c hc => absurd hc (List.not_mem_nil (a := c))) h
    rwa [List.nil_append] at hrun
  unfold Cursor.skipBlanks
  simp only [hnone, List.length_nil, List.drop_zero, Nat.add_zero]

@[simp] theorem Cursor.skipBlanks_cons {c : Char} (h : isJsonBlank c = false) (rest : List Char)
    (offset : Nat) : (Cursor.mk (c :: rest) offset).skipBlanks = ⟨c :: rest, offset⟩ :=
  skipBlanks_of_stops (stops_cons.mpr h) offset

/-! ## Section 3: Strings -/

/-- The escape of a control character is read as its number. -/
theorem readHex_control {n : Nat} (hlt : n < 0x20) (rest : List Char) (offset : Nat) :
    readHex ⟨'0' :: '0' :: hexDigit (n / 16) :: hexDigit (n % 16) :: rest, offset⟩ =
      .ok (n, ⟨rest, offset + 4⟩) := by
  have hall : ∀ n < 0x20,
      (String.ofList ['0', '0', hexDigit (n / 16), hexDigit (n % 16)]).utf8ByteSize = 4 ∧
        hexNumber? ['0', '0', hexDigit (n / 16), hexDigit (n % 16)] = some n := by
    decide
  obtain ⟨hsize, hnumber⟩ := hall n hlt
  unfold readHex
  simp only [List.take_succ_cons, List.take_zero, hsize, Nat.lt_irrefl, if_false, hnumber,
    List.drop_succ_cons, List.drop_zero]

/-- The escape of a control character, after its backslash, is read as the
    character. -/
theorem readEscape_control {c : Char} (hlt : c.toNat < 0x20) (rest : List Char) (offset : Nat) :
    readEscape .keep
        ⟨'u' :: '0' :: '0' :: hexDigit (c.toNat / 16) :: hexDigit (c.toNat % 16) :: rest, offset⟩ =
      .ok (c, ⟨rest, offset + 1 + 4⟩) := by
  have hlow : isLowSurrogate c.toNat = false := by
    unfold isLowSurrogate
    simp only [Bool.and_eq_false_iff, decide_eq_false_iff_not]
    omega
  have hhigh : isHighSurrogate c.toNat = false := by
    unfold isHighSurrogate
    simp only [Bool.and_eq_false_iff, decide_eq_false_iff_not]
    omega
  have hread := readHex_control hlt rest (offset + 1)
  show readUnicodeEscape .keep ⟨_, offset + 1⟩ = .ok (c, ⟨rest, offset + 1 + 4⟩)
  unfold readUnicodeEscape
  simp only [hread, ok_bind, hlow, hhigh, Bool.false_eq_true, if_false, Char.ofNat_toNat,
    show ¬ ReadMode.keep = .skip by decide]
  rfl

/-- A character is written behind a backslash with a mark that is read as
    the character, as a control character with its number, or as it is. -/
theorem escape_cases (c : Char) :
    (∃ mark, escape c = ['\\', mark] ∧ ∀ rest offset,
      readEscape .keep ⟨mark :: rest, offset⟩ = .ok (c, ⟨rest, offset + mark.utf8Size⟩)) ∨
    (c.toNat < 0x20 ∧ escape c =
      ['\\', 'u', '0', '0', hexDigit (c.toNat / 16), hexDigit (c.toNat % 16)]) ∨
    (c ≠ '"' ∧ c ≠ '\\' ∧ ¬ c.toNat < 0x20 ∧ escape c = [c]) := by
  have hchar {n : Nat} (h : c.toNat = n) : c = Char.ofNat n := by rw [← h, Char.ofNat_toNat]
  -- The seven characters with a mark, in the order of the writer.
  by_cases hquote : c = '"'
  · subst hquote
    exact .inl ⟨'"', rfl, fun _ _ => rfl⟩
  by_cases hbackslash : c = '\\'
  · subst hbackslash
    exact .inl ⟨'\\', rfl, fun _ _ => rfl⟩
  by_cases hbackspace : c.toNat = 0x08
  · obtain rfl := hchar hbackspace
    exact .inl ⟨'b', rfl, fun _ _ => rfl⟩
  by_cases hformFeed : c.toNat = 0x0C
  · obtain rfl := hchar hformFeed
    exact .inl ⟨'f', rfl, fun _ _ => rfl⟩
  by_cases hnewline : c = '\n'
  · subst hnewline
    exact .inl ⟨'n', rfl, fun _ _ => rfl⟩
  by_cases hreturn : c = '\r'
  · subst hreturn
    exact .inl ⟨'r', rfl, fun _ _ => rfl⟩
  by_cases htab : c = '\t'
  · subst htab
    exact .inl ⟨'t', rfl, fun _ _ => rfl⟩
  unfold escape
  rw [if_neg hquote, if_neg hbackslash, if_neg hbackspace, if_neg hformFeed, if_neg hnewline,
    if_neg hreturn, if_neg htab]
  by_cases hcontrol : c.toNat < 0x20
  · exact .inr (.inl ⟨hcontrol, if_pos hcontrol⟩)
  · exact .inr (.inr ⟨hquote, hbackslash, hcontrol, if_neg hcontrol⟩)

/-- A character of a string is read as itself, however it is escaped. -/
theorem readStringBody_step (fuel : Nat) (before : List Char) (c : Char) (rest : List Char)
    (offset : Nat) : ∃ offset',
      readStringBody .keep (fuel + 1) before ⟨escape c ++ rest, offset⟩ =
        readStringBody .keep fuel (c :: before) ⟨rest, offset'⟩ := by
  -- Behind a backslash the rest of the escape is read for the character.
  have hescaped {marks : List Char} {offset' : Nat} (hread : readEscape .keep
      ⟨marks ++ rest, offset + 1⟩ = .ok (c, ⟨rest, offset'⟩)) :
      readStringBody .keep (fuel + 1) before ⟨'\\' :: marks ++ rest, offset⟩ =
        readStringBody .keep fuel (c :: before) ⟨rest, offset'⟩ := by
    rw [List.cons_append, readStringBody]
    simp only [if_true, if_neg (show ¬ '\\' = '"' by decide), Cursor.advance_cons,
      show '\\'.utf8Size = 1 from rfl, hread, ok_bind]
  rcases escape_cases c with ⟨mark, heq, hread⟩ | ⟨hcontrol, heq⟩ |
    ⟨hquote, hbackslash, hplain, heq⟩
  · rw [heq]
    exact ⟨_, hescaped (hread rest (offset + 1))⟩
  · rw [heq]
    exact ⟨_, hescaped (readEscape_control hcontrol rest (offset + 1))⟩
  · refine ⟨offset + c.utf8Size, ?_⟩
    rw [heq, List.singleton_append, readStringBody]
    simp only [if_neg hquote, if_neg hbackslash, if_neg hplain, Cursor.advance_cons]

/-- A string is read up to its closing quote. -/
theorem readStringBody_escape {fuel : Nat} {cs : List Char} (hlt : cs.length < fuel)
    (before rest : List Char) (offset : Nat) : ∃ offset',
      readStringBody .keep fuel before ⟨cs.flatMap escape ++ '"' :: rest, offset⟩ =
        .ok (String.ofList (before.reverse ++ cs), ⟨rest, offset'⟩) := by
  induction cs generalizing fuel before offset with
  | nil =>
    obtain ⟨fuel, rfl⟩ : ∃ k, fuel = k + 1 := ⟨fuel - 1, by simp at hlt; omega⟩
    rw [List.append_nil]
    exact ⟨_, rfl⟩
  | cons c cs ih =>
    obtain ⟨fuel, rfl⟩ : ∃ k, fuel = k + 1 := ⟨fuel - 1, by simp at hlt; omega⟩
    obtain ⟨middle, hstep⟩ :=
      readStringBody_step fuel before c (cs.flatMap escape ++ '"' :: rest) offset
    obtain ⟨offset', hbody⟩ := ih (Nat.lt_of_succ_lt_succ hlt) (c :: before) middle
    refine ⟨offset', ?_⟩
    rw [List.flatMap_cons, List.append_assoc, hstep, hbody, List.reverse_cons, List.append_assoc,
      List.singleton_append]

theorem length_escape_pos (c : Char) : 0 < (escape c).length := by
  rcases escape_cases c with ⟨mark, heq, -⟩ | ⟨-, heq⟩ | ⟨-, -, -, heq⟩
  · exact heq ▸ Nat.succ_pos _
  · exact heq ▸ Nat.succ_pos _
  · exact heq ▸ Nat.succ_pos _

theorem length_le_length_escape (cs : List Char) : cs.length ≤ (cs.flatMap escape).length := by
  induction cs with
  | nil => exact Nat.le_refl _
  | cons c cs ih =>
    have hpos := length_escape_pos c
    rw [List.flatMap_cons, List.length_append, List.length_cons]
    omega

/-- The text of a string is read as the string. -/
theorem readString_quoted (s : String) (rest : List Char) (offset : Nat) :
    Outcome (readString .keep ⟨s.toList.flatMap escape ++ '"' :: rest, offset⟩) rest (.ok s) := by
  unfold readString
  have hlen := length_le_length_escape s.toList
  have hlt : s.toList.length < (s.toList.flatMap escape ++ '"' :: rest).length + 1 := by
    rw [List.length_append]
    omega
  obtain ⟨offset', hbody⟩ := readStringBody_escape hlt [] rest offset
  refine ⟨offset', ?_⟩
  rw [hbody, List.reverse_nil, List.nil_append, String.ofList_toList]

/-! ## Section 4: Words and numbers -/

/-- An integer of 64 bits, with a sign or without. -/
def Fits64 (n : Int) : Prop := -2 ^ 63 ≤ n ∧ n < 2 ^ 64

theorem head_append {cs : List Char} (hdigit : cs.head?.any Char.isDigit = true)
    (rest : List Char) : (cs ++ rest).head?.any Char.isDigit = true := by
  cases cs with
  | nil => cases hdigit
  | cons first others => exact hdigit

theorem head_toDigits_append (k : Nat) (rest : List Char) :
    (Nat.toDigits 10 k ++ rest).head?.any Char.isDigit = true := by
  obtain ⟨first, others, hcons⟩ := List.exists_cons_of_ne_nil (@Nat.toDigits_ne_nil k 10)
  rw [hcons]
  exact allDigits_toDigits k first (hcons ▸ List.mem_cons_self)

theorem toList_toString (n : Int) :
    (toString n).toList = (signText (n < 0)).toList ++ Nat.toDigits 10 n.natAbs := by
  rw [Int.toString_eq_repr, Int.repr_eq_if]
  by_cases hneg : n < 0
  · rw [if_neg (by omega), decide_eq_true hneg, String.toList_append, Nat.toList_repr,
      show (-n).toNat = n.natAbs by omega]
    rfl
  · rw [if_pos (by omega), decide_eq_false hneg, Nat.toList_repr,
      show n.toNat = n.natAbs by omega]
    rfl

section Scalars

variable (fuel room : Nat) {rest : List Char} (offset : Nat)

theorem outcome_null (rest : List Char) :
    Outcome (readValue .keep (fuel + 1) room ⟨"null".toList ++ rest, offset⟩) rest (.ok .null) :=
  ⟨offset + 4, rfl⟩

theorem outcome_boolean (b : Bool) (rest : List Char) :
    Outcome (readValue .keep (fuel + 1) room
      ⟨(if b then "true" else "false").toList ++ rest, offset⟩) rest (.ok (.boolean b)) := by
  cases b with
  | true => exact ⟨offset + 4, rfl⟩
  | false => exact ⟨offset + 5, rfl⟩

theorem isJsonBlank_of_isDigit {c : Char} (h : c.isDigit = true) : isJsonBlank c = false := by
  by_contra hblank
  unfold isJsonBlank at hblank
  simp only [Bool.not_eq_false, Bool.or_eq_true, decide_eq_true_eq] at hblank
  rcases hblank with ((rfl | rfl) | rfl) | rfl <;> cases h

/-- A value that begins with a digit, or with a minus, is a number. -/
theorem readValue_signed (negative : Bool) {cs : List Char}
    (hdigit : cs.head?.any Char.isDigit = true) : ∃ offset',
      readValue .keep (fuel + 1) room ⟨(signText negative).toList ++ cs, offset⟩ =
        readNumber negative ⟨cs, offset'⟩ := by
  cases negative with
  | true => exact ⟨offset + 1, rfl⟩
  | false =>
    obtain _ | ⟨first, others⟩ := cs
    · cases hdigit
    · have hfirst : first.isDigit = true := hdigit
      have hne {c : Char} (hc : c.isDigit = false) : first ≠ c := by
        rintro rfl
        rw [hfirst] at hc
        cases hc
      refine ⟨offset, ?_⟩
      show readValue .keep (fuel + 1) room ⟨first :: others, offset⟩ = _
      rw [readValue, Cursor.skipBlanks_cons (isJsonBlank_of_isDigit hfirst)]
      simp only [if_neg (hne (c := 'n') rfl), if_neg (hne (c := 't') rfl),
        if_neg (hne (c := 'f') rfl), if_neg (hne (c := '-') rfl), if_pos hfirst]
      rfl

/-- The digits of a number that fits the significand are read as it. -/
theorem readNumber_toDigits (negative : Bool) {k : Nat} (hlimit : k < significandLimit)
    (hrest : EndsNumeral rest) : ∃ offset',
      readNumber negative ⟨Nat.toDigits 10 k ++ rest, offset⟩ =
        .ok (ofInteger negative k, ⟨rest, offset'⟩) := by
  have hhead : Nat.toDigits 10 k = ['0'] ∨ (Nat.toDigits 10 k).head? ≠ some '0' := by
    rcases Nat.eq_zero_or_pos k with rfl | hpos
    · exact Or.inl rfl
    · exact Or.inr (head_toDigits_ne hpos)
  have hpoint : (Cursor.mk rest (offset + (Nat.toDigits 10 k).length)).at '.' = false := by
    simp [Cursor.at, hrest.head_ne.1]
  refine ⟨offset + (Nat.toDigits 10 k).length, ?_⟩
  rw [readNumber_run negative (allDigits_toDigits k) Nat.toDigits_ne_nil hhead
    (by rw [digitsValue_toDigits]; exact hlimit) hrest.stops]
  simp only [hpoint, Cursor.atExponent_eq_false hrest, Bool.false_eq_true, if_false,
    digitsValue_toDigits]

theorem outcome_integer {n : Int} (hfits : Fits64 n) (hrest : EndsNumeral rest) :
    Outcome (readValue .keep (fuel + 1) room ⟨(toString n).toList ++ rest, offset⟩) rest
      (.ok (.integer n)) := by
  obtain ⟨hleast, hgreatest⟩ := hfits
  have hlimit : (significandLimit : Int) = 2 ^ 64 := rfl
  have hvalue : ofInteger (n < 0) n.natAbs = .integer n := by
    unfold ofInteger
    by_cases hneg : n < 0
    · have hfits : ¬ (n.natAbs = 0 ∨ twoPow 63 < n.natAbs) := by
        have hpow : twoPow 63 = 2 ^ 63 := rfl
        omega
      rw [decide_eq_true hneg, if_pos rfl, if_neg hfits, show -(n.natAbs : Int) = n by omega]
    · rw [decide_eq_false hneg, if_neg Bool.false_ne_true, show (n.natAbs : Int) = n by omega]
  obtain ⟨middle, hsigned⟩ :=
    readValue_signed fuel room offset (n < 0) (head_toDigits_append n.natAbs rest)
  obtain ⟨offset', hnumber⟩ :=
    readNumber_toDigits middle (n < 0) (k := n.natAbs) (by omega) hrest
  refine ⟨offset', ?_⟩
  rw [toList_toString, List.append_assoc, hsigned, hnumber, hvalue]

/-- What the data notation of a double is read as: the number of its digits
    and its exponent, which may be another double. -/
def digitsRead : Binary64 → Except JsonFault Json
  | .finite negative rank =>
    match ofParts? negative (Binary64.dataDecimal rank).coefficient
        (Binary64.dataDecimal rank).exponent with
    | some x => .ok (.real x)
    | none => .error .numberOutOfRange
  | _ => .ok .null

/-- What the data notation of a double is read as does not depend on where
    it stands. -/
theorem outcome_dataText (x : Binary64) (hrest : EndsNumeral rest) :
    Outcome (readValue .keep (fuel + 1) room ⟨x.dataText.toList ++ rest, offset⟩) rest
      (digitsRead x) := by
  cases x with
  | nan => exact outcome_null fuel room offset rest
  | infinite => exact outcome_null fuel room offset rest
  | finite negative rank =>
    obtain ⟨n, hchars, hdecimal, -, hcoefficient, hexponent⟩ := Binary64.exists_numeral rank.isLt
    have htext : (Binary64.dataText (.finite negative rank)).toList =
        (signText negative).toList ++ n.chars := by
      rw [Binary64.dataText, hchars, String.toList_append, String.toList_ofList]
    obtain ⟨middle, hsigned⟩ :=
      readValue_signed fuel room offset negative (head_append n.head_chars rest)
    obtain ⟨offset', hnumber⟩ := readNumber_chars n negative hcoefficient hexponent hrest middle
    rw [htext, List.append_assoc, hsigned, hnumber, digitsRead, ← hdecimal]
    unfold finishNumber
    cases ofParts? negative n.decimal.coefficient n.decimal.exponent with
    | some x => exact ⟨offset', rfl⟩
    | none => exact ⟨offset', rfl⟩

end Scalars

/-! ## Section 5: Values -/

mutual

/-- What the compact text of a value is read as when a number of levels may
    still be opened, the next one included. -/
def reloaded (room : Nat) : Json → Except JsonFault Json
  | .real x => (readText x.dataText).mapError (·.fault)
  | .array items =>
    if room ≤ 1 then .error .nestingTooDeep
    else do return .array (← reloadedItems (room - 1) items)
  | .object members =>
    if room ≤ 1 then .error .nestingTooDeep
    else do return .object (← reloadedMembers (room - 1) members)
  | v => .ok v

/-- What the items of an array are read as. -/
def reloadedItems (room : Nat) : List Json → Except JsonFault (List Json)
  | [] => .ok []
  | item :: rest => do
    let item ← item.reloaded room
    let rest ← reloadedItems room rest
    return item :: rest

/-- What the members of an object are read as. -/
def reloadedMembers (room : Nat) :
    List (String × Json) → Except JsonFault (List (String × Json))
  | [] => .ok []
  | (key, value) :: rest => do
    let value ← value.reloaded room
    let rest ← reloadedMembers room rest
    return (key, value) :: rest

end

mutual

/-- The parts of a value that have no parts themselves, from left to right. -/
def atoms : Json → List Json
  | .array items => atomsOfItems items
  | .object members => atomsOfMembers members
  | v => [v]

/-- The atoms of the items of an array. -/
def atomsOfItems : List Json → List Json
  | [] => []
  | item :: rest => item.atoms ++ atomsOfItems rest

/-- The atoms of the members of an object. -/
def atomsOfMembers : List (String × Json) → List Json
  | [] => []
  | (_, value) :: rest => value.atoms ++ atomsOfMembers rest

end

theorem readEnd_nil (offset : Nat) : readEnd ⟨[], offset⟩ = .ok () := rfl

/-- A text that is read to its end is read as what has been read. -/
theorem readText_of_outcome {text : String} {expected : Except JsonFault Json}
    (h : Outcome (readValue .keep (Cursor.start text).fuel fullRoom (.start text)) [] expected) :
    (readText text).mapError (·.fault) = expected := by
  unfold readText
  cases expected with
  | ok v =>
    obtain ⟨offset, hread⟩ := h
    simp only [hread, ok_bind, readEnd_nil]
    rfl
  | error fault =>
    obtain ⟨offset, hread⟩ := h
    simp only [hread, error_bind]
    rfl

theorem reloaded_real (x : Binary64) (room : Nat) : (Json.real x).reloaded room = digitsRead x := by
  have halone := outcome_dataText (2 * x.dataText.toList.length + 1) fullRoom 0 x endsNumeral_nil
  rw [List.append_nil] at halone
  exact readText_of_outcome halone

/-- A double is read in its place as its data notation is on its own. -/
theorem outcome_real (x : Binary64) (fuel room : Nat) {rest : List Char} (offset : Nat)
    (hrest : EndsNumeral rest) :
    Outcome (readValue .keep (fuel + 1) room ⟨(Json.real x).compactBefore rest, offset⟩) rest
      ((Json.real x).reloaded room) := by
  rw [reloaded_real]
  exact outcome_dataText fuel room offset x hrest

/-- What a value begins with: no blank, and not the end of an array. -/
def StartsValue (cs : List Char) : Prop :=
  ∃ first others, cs = first :: others ∧ isJsonBlank first = false ∧ first ≠ ']'

theorem startsValue_number (negative : Bool) {cs : List Char}
    (hdigit : cs.head?.any Char.isDigit = true) :
    StartsValue ((signText negative).toList ++ cs) := by
  cases negative with
  | true => exact ⟨'-', cs, rfl, rfl, by decide⟩
  | false =>
    obtain _ | ⟨first, others⟩ := cs
    · cases hdigit
    · have hfirst : first.isDigit = true := hdigit
      refine ⟨first, others, rfl, isJsonBlank_of_isDigit hfirst, ?_⟩
      rintro rfl
      cases hfirst

theorem startsValue_compactBefore (v : Json) (rest : List Char) :
    StartsValue (v.compactBefore rest) := by
  have hnull : StartsValue ("null".toList ++ rest) := ⟨'n', _, rfl, rfl, by decide⟩
  cases v with
  | null => exact hnull
  | boolean b =>
    cases b with
    | true => exact ⟨'t', _, rfl, rfl, by decide⟩
    | false => exact ⟨'f', _, rfl, rfl, by decide⟩
  | integer n =>
    rw [compactBefore, toList_toString, List.append_assoc]
    exact startsValue_number _ (head_toDigits_append _ rest)
  | real x =>
    cases x with
    | nan => exact hnull
    | infinite negative => exact hnull
    | finite negative rank =>
      obtain ⟨n, hchars, -⟩ := Binary64.exists_numeral rank.isLt
      rw [compactBefore, Binary64.dataText, hchars, String.toList_append, String.toList_ofList,
        List.append_assoc]
      exact startsValue_number negative (head_append n.head_chars rest)
  | text s => exact ⟨'"', _, rfl, rfl, by decide⟩
  | array items =>
    cases items with
    | nil => exact ⟨'[', _, rfl, rfl, by decide⟩
    | cons item items => exact ⟨'[', _, rfl, rfl, by decide⟩
  | object members =>
    cases members with
    | nil => exact ⟨'\x7b', _, rfl, rfl, by decide⟩
    | cons member members => exact ⟨'\x7b', _, rfl, rfl, by decide⟩

theorem length_lt_quotedBefore (s : String) (rest : List Char) :
    rest.length < (quotedBefore s rest).length := by
  simp only [quotedBefore, List.cons_append, List.length_cons, List.length_append]
  omega

/-- A key and its colon take up two characters at least. -/
theorem length_lt_keyBefore (key : String) (rest : List Char) :
    rest.length + 1 < (quotedBefore key (':' :: rest)).length :=
  length_lt_quotedBefore key (':' :: rest)

mutual

theorem length_lt_compactBefore : ∀ (v : Json) (rest : List Char),
    rest.length < (v.compactBefore rest).length
  | .null, rest => by
    simp only [compactBefore, List.length_append]
    exact Nat.lt_add_of_pos_left (by decide)
  | .boolean b, rest => by
    simp only [compactBefore, List.length_append]
    exact Nat.lt_add_of_pos_left (by cases b <;> decide)
  | .integer n, rest => by
    have hpos : 0 < (Nat.toDigits 10 n.natAbs).length := Nat.length_toDigits_pos
    rw [compactBefore, toList_toString, List.length_append, List.length_append]
    omega
  | .real x, rest => by
    have hpos : x.dataText.toList ≠ [] := by
      intro hnil
      obtain ⟨first, others, hcons, -⟩ := startsValue_compactBefore (.real x) []
      rw [compactBefore, hnil] at hcons
      cases hcons
    rw [compactBefore, List.length_append]
    have := List.length_pos_iff.mpr hpos
    omega
  | .text s, rest => length_lt_quotedBefore s rest
  | .array [], rest => by
    simp only [compactBefore, List.length_cons]
    omega
  | .array (item :: items), rest => by
    have hitem := length_lt_compactBefore item (itemsBefore items rest)
    have hitems := length_lt_itemsBefore items rest
    rw [compactBefore, List.length_cons]
    omega
  | .object [], rest => by
    simp only [compactBefore, List.length_cons]
    omega
  | .object ((key, value) :: members), rest => by
    have hvalue := length_lt_compactBefore value (membersBefore members rest)
    have hmembers := length_lt_membersBefore members rest
    have hkey := length_lt_keyBefore key (value.compactBefore (membersBefore members rest))
    rw [compactBefore, List.length_cons]
    omega

theorem length_lt_itemsBefore : ∀ (items : List Json) (rest : List Char),
    rest.length < (itemsBefore items rest).length
  | [], rest => by
    simp [itemsBefore]
  | item :: items, rest => by
    have hitem := length_lt_compactBefore item (itemsBefore items rest)
    have hitems := length_lt_itemsBefore items rest
    rw [itemsBefore, List.length_cons]
    omega

theorem length_lt_membersBefore : ∀ (members : List (String × Json)) (rest : List Char),
    rest.length < (membersBefore members rest).length
  | [], rest => by
    simp [membersBefore]
  | (key, value) :: members, rest => by
    have hvalue := length_lt_compactBefore value (membersBefore members rest)
    have hmembers := length_lt_membersBefore members rest
    have hkey := length_lt_keyBefore key (value.compactBefore (membersBefore members rest))
    rw [membersBefore, List.length_cons]
    omega

end

theorem endsNumeral_itemsBefore (items : List Json) (rest : List Char) :
    EndsNumeral (itemsBefore items rest) := by
  cases items with
  | nil => exact stops_cons.mpr rfl
  | cons item items => exact stops_cons.mpr rfl

theorem endsNumeral_membersBefore (members : List (String × Json)) (rest : List Char) :
    EndsNumeral (membersBefore members rest) := by
  cases members with
  | nil => exact stops_cons.mpr rfl
  | cons member members => exact stops_cons.mpr rfl

/-- Another item follows a comma, or the opening bracket. -/
theorem nextItem_more (first : Bool) {cs : List Char} (hcs : StartsValue cs) (offset : Nat) :
    ∃ offset', nextItem .keep first ⟨if first then cs else ',' :: cs, offset⟩ =
      .ok (.more, ⟨cs, offset'⟩) := by
  obtain ⟨char, others, rfl, hblank, hend⟩ := hcs
  unfold nextItem
  cases first with
  | true =>
    refine ⟨offset, ?_⟩
    simp only [if_true, Cursor.skipBlanks_cons hblank, List.isEmpty_cons, Bool.false_eq_true,
      if_false, Cursor.at_cons, decide_eq_false hend]
  | false =>
    refine ⟨offset + 1, ?_⟩
    simp [Cursor.skipBlanks_cons (show isJsonBlank ',' = false from rfl),
      Cursor.skipBlanks_cons hblank, hend]
    rfl

/-- Another member follows a comma, or the opening brace. Its key is read up
    to the colon, and the colon up to the value. -/
theorem nextMember_more (first : Bool) (key : String) (cs : List Char) (offset : Nat) :
    ∃ inside behind, nextMember .keep first
        ⟨if first then quotedBefore key (':' :: cs) else ',' :: quotedBefore key (':' :: cs),
          offset⟩ = .ok (.more, inside) ∧
      readString .keep inside = .ok (key, ⟨':' :: cs, behind⟩) ∧
      readColon ⟨':' :: cs, behind⟩ = .ok ⟨cs, behind + 1⟩ := by
  have hmark : ∃ offset', nextMember .keep first
      ⟨if first then quotedBefore key (':' :: cs) else ',' :: quotedBefore key (':' :: cs),
        offset⟩ = .ok (.more, ⟨key.toList.flatMap escape ++ '"' :: ':' :: cs, offset'⟩) := by
    cases first with
    | true => exact ⟨offset + 1, rfl⟩
    | false => exact ⟨offset + 2, rfl⟩
  obtain ⟨offset', hmore⟩ := hmark
  obtain ⟨behind, hkey⟩ := readString_quoted key (':' :: cs) offset'
  exact ⟨_, behind, hmore, hkey, rfl⟩

theorem readItems_more {fuel room : Nat} {before : List Json} {c c' : Cursor}
    (hmore : nextItem .keep before.isEmpty c = .ok (.more, c')) :
    readItems .keep (fuel + 1) room before c =
      readValue .keep fuel room c' >>= fun item =>
        readItems .keep fuel room (item.1 :: before) item.2 := by
  rw [readItems, hmore]
  rfl

theorem readMembers_more {fuel room : Nat} {before : List (String × Json)} {c c' : Cursor}
    (hmore : nextMember .keep before.isEmpty c = .ok (.more, c')) :
    readMembers .keep (fuel + 1) room before c =
      readString .keep c' >>= fun key =>
        readColon key.2 >>= fun colon =>
          readValue .keep fuel room colon >>= fun value =>
            readMembers .keep fuel room ((key.1, value.1) :: before) value.2 := by
  rw [readMembers, hmore]
  rfl

/-- Nothing is read of an array or object for which there is no room. -/
theorem outcome_opened {room : Nat} {cs rest : List Char} {offset : Nat}
    (inside : Nat → Except FaultAt (Json × Cursor)) {expected : Except JsonFault Json}
    (h : Outcome (inside (room - 1)) rest expected) :
    Outcome (opened .keep room ⟨cs, offset⟩ >>= inside) rest
      (if room ≤ 1 then .error .nestingTooDeep else expected) := by
  unfold opened
  by_cases hroom : room ≤ 1
  · simp only [if_pos hroom]
    exact ⟨_, rfl⟩
  · simp only [if_neg hroom, ok_bind]
    exact h

theorem outcome_array (items : List Json) {fuel room offset : Nat} {cs rest : List Char}
    (h : Outcome (readItems .keep fuel (room - 1) [] ⟨cs, offset + 1⟩) rest
      (reloadedItems (room - 1) items >>= fun items => .ok (.array items))) :
    Outcome (readValue .keep (fuel + 1) room ⟨'[' :: cs, offset⟩) rest
      ((Json.array items).reloaded room) := by
  rw [reloaded]
  exact outcome_opened (fun inside => readItems .keep fuel inside [] ⟨cs, offset + 1⟩) h

theorem outcome_object (members : List (String × Json)) {fuel room offset : Nat}
    {cs rest : List Char}
    (h : Outcome (readMembers .keep fuel (room - 1) [] ⟨cs, offset + 1⟩) rest
      (reloadedMembers (room - 1) members >>= fun members => .ok (.object members))) :
    Outcome (readValue .keep (fuel + 1) room ⟨'\x7b' :: cs, offset⟩) rest
      ((Json.object members).reloaded room) := by
  rw [reloaded]
  exact outcome_opened (fun inside => readMembers .keep fuel inside [] ⟨cs, offset + 1⟩) h

theorem reloadedItems_more (room : Nat) (before : List Json) (item : Json) (items : List Json) :
    (reloadedItems room (item :: items) >>= fun items =>
        (.ok (.array (before.reverse ++ items)) : Except JsonFault Json)) =
      item.reloaded room >>= fun item' => reloadedItems room items >>= fun items =>
        .ok (.array ((item' :: before).reverse ++ items)) := by
  rw [reloadedItems]
  cases item.reloaded room with
  | error fault => rfl
  | ok item' =>
    cases reloadedItems room items with
    | error fault => rfl
    | ok items' =>
      simp only [ok_bind, List.reverse_cons, List.append_assoc, List.singleton_append]
      rfl

theorem reloadedMembers_more (room : Nat) (before : List (String × Json)) (key : String)
    (value : Json) (members : List (String × Json)) :
    (reloadedMembers room ((key, value) :: members) >>= fun members =>
        (.ok (.object (before.reverse ++ members)) : Except JsonFault Json)) =
      value.reloaded room >>= fun value' => reloadedMembers room members >>= fun members =>
        .ok (.object (((key, value') :: before).reverse ++ members)) := by
  rw [reloadedMembers]
  cases value.reloaded room with
  | error fault => rfl
  | ok value' =>
    cases reloadedMembers room members with
    | error fault => rfl
    | ok members' =>
      simp only [ok_bind, List.reverse_cons, List.append_assoc, List.singleton_append]
      rfl

/-- One item and those after it. -/
theorem outcome_more_items (fuel room : Nat) (before : List Json) (item : Json) (items : List Json)
    (rest : List Char)
    (hitem : ∀ offset, Outcome
      (readValue .keep fuel room ⟨item.compactBefore (itemsBefore items rest), offset⟩)
      (itemsBefore items rest) (item.reloaded room))
    (hitems : ∀ item' offset, Outcome
      (readItems .keep fuel room (item' :: before) ⟨itemsBefore items rest, offset⟩) rest
      (reloadedItems room items >>= fun items => .ok (.array ((item' :: before).reverse ++ items))))
    (offset : Nat) :
    Outcome (readItems .keep (fuel + 1) room before
        ⟨if before.isEmpty then item.compactBefore (itemsBefore items rest)
          else ',' :: item.compactBefore (itemsBefore items rest), offset⟩) rest
      (reloadedItems room (item :: items) >>= fun items =>
        .ok (.array (before.reverse ++ items))) := by
  obtain ⟨middle, hmore⟩ :=
    nextItem_more before.isEmpty (startsValue_compactBefore item (itemsBefore items rest)) offset
  rw [readItems_more hmore, reloadedItems_more]
  exact (hitem middle).bind fun item' offset => hitems item' offset

/-- One member and those after it. -/
theorem outcome_more_members (fuel room : Nat) (before : List (String × Json)) (key : String)
    (value : Json) (members : List (String × Json)) (rest : List Char)
    (hvalue : ∀ offset, Outcome
      (readValue .keep fuel room ⟨value.compactBefore (membersBefore members rest), offset⟩)
      (membersBefore members rest) (value.reloaded room))
    (hmembers : ∀ value' offset, Outcome
      (readMembers .keep fuel room ((key, value') :: before) ⟨membersBefore members rest, offset⟩)
      rest (reloadedMembers room members >>= fun members =>
        .ok (.object (((key, value') :: before).reverse ++ members))))
    (offset : Nat) :
    Outcome (readMembers .keep (fuel + 1) room before
        ⟨if before.isEmpty then
            quotedBefore key (':' :: value.compactBefore (membersBefore members rest))
          else ',' :: quotedBefore key (':' :: value.compactBefore (membersBefore members rest)),
          offset⟩) rest
      (reloadedMembers room ((key, value) :: members) >>= fun members =>
        .ok (.object (before.reverse ++ members))) := by
  obtain ⟨inside, behind, hmore, hkey, hcolon⟩ := nextMember_more before.isEmpty key
    (value.compactBefore (membersBefore members rest)) offset
  rw [readMembers_more hmore, reloadedMembers_more, hkey]
  simp only [ok_bind, hcolon]
  exact (hvalue (behind + 1)).bind fun value' offset => hmembers value' offset

mutual

/-- The reader goes over the compact text of a value and stops behind it. -/
theorem outcome_value : ∀ (v : Json), (∀ n, .integer n ∈ v.atoms → Fits64 n) →
    ∀ {fuel : Nat} (room : Nat) {rest : List Char} (offset : Nat), EndsNumeral rest →
      2 * (v.compactBefore rest).length + 2 ≤ fuel →
        Outcome (readValue .keep fuel room ⟨v.compactBefore rest, offset⟩) rest (v.reloaded room)
  | .null, _, fuel, room, rest, offset, _, hfuel => by
    obtain ⟨fuel, rfl⟩ : ∃ k, fuel = k + 1 := ⟨fuel - 1, by omega⟩
    exact outcome_null fuel room offset rest
  | .boolean b, _, fuel, room, rest, offset, _, hfuel => by
    obtain ⟨fuel, rfl⟩ : ∃ k, fuel = k + 1 := ⟨fuel - 1, by omega⟩
    exact outcome_boolean fuel room offset b rest
  | .integer n, hfits, fuel, room, rest, offset, hrest, hfuel => by
    obtain ⟨fuel, rfl⟩ : ∃ k, fuel = k + 1 := ⟨fuel - 1, by omega⟩
    exact outcome_integer fuel room offset (hfits n List.mem_cons_self) hrest
  | .real x, _, fuel, room, rest, offset, hrest, hfuel => by
    obtain ⟨fuel, rfl⟩ : ∃ k, fuel = k + 1 := ⟨fuel - 1, by omega⟩
    exact outcome_real x fuel room offset hrest
  | .text s, _, fuel, room, rest, offset, hrest, hfuel => by
    obtain ⟨fuel, rfl⟩ : ∃ k, fuel = k + 1 := ⟨fuel - 1, by omega⟩
    obtain ⟨offset', hstring⟩ := readString_quoted s rest (offset + 1)
    refine ⟨offset', ?_⟩
    show (readString .keep ⟨s.toList.flatMap escape ++ '"' :: rest, offset + 1⟩ >>= fun read =>
      .ok (Json.text read.1, read.2)) = .ok (Json.text s, ⟨rest, offset'⟩)
    rw [hstring, ok_bind]
  | .array [], _, fuel, room, rest, offset, hrest, hfuel => by
    obtain ⟨fuel, rfl⟩ : ∃ k, fuel = k + 2 := ⟨fuel - 2, by omega⟩
    exact outcome_array [] ⟨offset + 2, rfl⟩
  | .array (item :: items), hfits, fuel, room, rest, offset, hrest, hfuel => by
    obtain ⟨fuel, rfl⟩ : ∃ k, fuel = k + 2 := ⟨fuel - 2, by omega⟩
    have hlen := length_lt_compactBefore item (itemsBefore items rest)
    -- The bracket pays for the two steps down to the first item.
    rw [compactBefore, List.length_cons] at hfuel
    refine outcome_array (item :: items)
      (outcome_more_items fuel (room - 1) [] item items rest ?_ ?_ (offset + 1))
    · intro offset
      exact outcome_value item (fun n hn => hfits n (List.mem_append_left _ hn)) (room - 1) offset
        (endsNumeral_itemsBefore items rest) (by omega)
    · intro item' offset
      exact outcome_items items (fun n hn => hfits n (List.mem_append_right _ hn)) (room - 1) rest
        offset (List.cons_ne_nil _ _) (by omega)
  | .object [], _, fuel, room, rest, offset, hrest, hfuel => by
    obtain ⟨fuel, rfl⟩ : ∃ k, fuel = k + 2 := ⟨fuel - 2, by omega⟩
    exact outcome_object [] ⟨offset + 2, rfl⟩
  | .object ((key, value) :: members), hfits, fuel, room, rest, offset, hrest, hfuel => by
    obtain ⟨fuel, rfl⟩ : ∃ k, fuel = k + 2 := ⟨fuel - 2, by omega⟩
    have hlen := length_lt_compactBefore value (membersBefore members rest)
    have hkey := length_lt_keyBefore key (value.compactBefore (membersBefore members rest))
    rw [compactBefore, List.length_cons] at hfuel
    refine outcome_object ((key, value) :: members)
      (outcome_more_members fuel (room - 1) [] key value members rest ?_ ?_ (offset + 1))
    · intro offset
      exact outcome_value value (fun n hn => hfits n (List.mem_append_left _ hn)) (room - 1) offset
        (endsNumeral_membersBefore members rest) (by omega)
    · intro value' offset
      exact outcome_members members (fun n hn => hfits n (List.mem_append_right _ hn)) (room - 1)
        rest offset (List.cons_ne_nil _ _) (by omega)

/-- The reader goes over the items after the first and the end of an array. -/
theorem outcome_items : ∀ (items : List Json), (∀ n, .integer n ∈ atomsOfItems items → Fits64 n) →
    ∀ {fuel : Nat} (room : Nat) {before : List Json} (rest : List Char) (offset : Nat),
      before ≠ [] → 2 * (itemsBefore items rest).length + 3 ≤ fuel →
        Outcome (readItems .keep fuel room before ⟨itemsBefore items rest, offset⟩) rest
          (reloadedItems room items >>= fun items => .ok (.array (before.reverse ++ items)))
  | [], _, fuel, room, before, rest, offset, hbefore, hfuel => by
    obtain ⟨fuel, rfl⟩ : ∃ k, fuel = k + 1 := ⟨fuel - 1, by omega⟩
    refine ⟨offset + 1, ?_⟩
    rw [List.append_nil]
    rfl
  | item :: items, hfits, fuel, room, before, rest, offset, hbefore, hfuel => by
    obtain ⟨fuel, rfl⟩ : ∃ k, fuel = k + 1 := ⟨fuel - 1, by omega⟩
    have hlen := length_lt_compactBefore item (itemsBefore items rest)
    -- The text behind an item is shorter than the item with it, so the fuel
    -- for it is smaller, although the reader is one step further.
    rw [itemsBefore, List.length_cons] at hfuel
    have hmore := outcome_more_items fuel room before item items rest ?_ ?_ offset
    · rw [List.isEmpty_eq_false_iff.mpr hbefore] at hmore
      exact hmore
    · intro offset
      exact outcome_value item (fun n hn => hfits n (List.mem_append_left _ hn)) room offset
        (endsNumeral_itemsBefore items rest) (by omega)
    · intro item' offset
      exact outcome_items items (fun n hn => hfits n (List.mem_append_right _ hn)) room rest
        offset (List.cons_ne_nil _ _) (by omega)

/-- The reader goes over the members after the first and the end of an
    object. -/
theorem outcome_members : ∀ (members : List (String × Json)),
    (∀ n, .integer n ∈ atomsOfMembers members → Fits64 n) →
    ∀ {fuel : Nat} (room : Nat) {before : List (String × Json)} (rest : List Char) (offset : Nat),
      before ≠ [] → 2 * (membersBefore members rest).length + 3 ≤ fuel →
        Outcome (readMembers .keep fuel room before ⟨membersBefore members rest, offset⟩) rest
          (reloadedMembers room members >>= fun members =>
            .ok (.object (before.reverse ++ members)))
  | [], _, fuel, room, before, rest, offset, hbefore, hfuel => by
    obtain ⟨fuel, rfl⟩ : ∃ k, fuel = k + 1 := ⟨fuel - 1, by omega⟩
    refine ⟨offset + 1, ?_⟩
    rw [List.append_nil]
    rfl
  | (key, value) :: members, hfits, fuel, room, before, rest, offset, hbefore, hfuel => by
    obtain ⟨fuel, rfl⟩ : ∃ k, fuel = k + 1 := ⟨fuel - 1, by omega⟩
    have hlen := length_lt_compactBefore value (membersBefore members rest)
    have hkey := length_lt_keyBefore key (value.compactBefore (membersBefore members rest))
    rw [membersBefore, List.length_cons] at hfuel
    have hmore := outcome_more_members fuel room before key value members rest ?_ ?_ offset
    · rw [List.isEmpty_eq_false_iff.mpr hbefore] at hmore
      exact hmore
    · intro offset
      exact outcome_value value (fun n hn => hfits n (List.mem_append_left _ hn)) room offset
        (endsNumeral_membersBefore members rest) (by omega)
    · intro value' offset
      exact outcome_members members (fun n hn => hfits n (List.mem_append_right _ hn)) room
        rest offset (List.cons_ne_nil _ _) (by omega)

end

/-- Compact text as a whole is read as its value. -/
theorem readText_compact {v : Json} (hfits : ∀ n, .integer n ∈ v.atoms → Fits64 n) :
    (readText v.compact).mapError (·.fault) = v.reloaded fullRoom := by
  apply readText_of_outcome
  have hlist : v.compact.toList = v.compactBefore [] := String.toList_ofList
  have hread := outcome_value v hfits fullRoom 0 endsNumeral_nil
    (Nat.le_refl (2 * (v.compactBefore []).length + 2))
  rw [← hlist] at hread
  exact hread

/-! ## Section 6: What comes out -/

section

variable (f : Binary64 → Json)

mutual

/-- The value with something else in the place of each double. -/
def mapReals : Json → Json
  | .real x => f x
  | .array items => .array (mapRealsOfItems items)
  | .object members => .object (mapRealsOfMembers members)
  | v => v

/-- The items with something else in the place of each double. -/
def mapRealsOfItems : List Json → List Json
  | [] => []
  | item :: rest => item.mapReals :: mapRealsOfItems rest

/-- The members with something else in the place of each double. -/
def mapRealsOfMembers : List (String × Json) → List (String × Json)
  | [] => []
  | (key, value) :: rest => (key, value.mapReals) :: mapRealsOfMembers rest

end

end

section

variable {f : Binary64 → Json}

mutual

/-- Nothing changes when each double stays what it is. -/
theorem mapReals_eq_self : ∀ v : Json, (∀ x, .real x ∈ v.atoms → f x = .real x) →
    v.mapReals f = v
  | .real x, h => h x List.mem_cons_self
  | .array items, h => congrArg Json.array (mapRealsOfItems_eq_self items h)
  | .object members, h => congrArg Json.object (mapRealsOfMembers_eq_self members h)
  | .null, _ | .boolean _, _ | .integer _, _ | .text _, _ => rfl

theorem mapRealsOfItems_eq_self : ∀ items : List Json,
    (∀ x, .real x ∈ atomsOfItems items → f x = .real x) → mapRealsOfItems f items = items
  | [], _ => rfl
  | item :: items, h => by
    rw [mapRealsOfItems, mapReals_eq_self item fun x hx => h x (List.mem_append_left _ hx),
      mapRealsOfItems_eq_self items fun x hx => h x (List.mem_append_right _ hx)]

theorem mapRealsOfMembers_eq_self : ∀ members : List (String × Json),
    (∀ x, .real x ∈ atomsOfMembers members → f x = .real x) →
      mapRealsOfMembers f members = members
  | [], _ => rfl
  | (key, value) :: members, h => by
    rw [mapRealsOfMembers, mapReals_eq_self value fun x hx => h x (List.mem_append_left _ hx),
      mapRealsOfMembers_eq_self members fun x hx => h x (List.mem_append_right _ hx)]

end

end

/-- All numbers in the value are integers of 64 bits. -/
def WholeNumbers (v : Json) : Prop :=
  ∀ a ∈ v.atoms, a.number?.isSome → ∃ n, a = .integer n ∧ Fits64 n

/-- The reader finds the double again that is written in data notation. -/
def Reread (x : Binary64) : Prop := Json.read x.dataText = .ok (.real x)

theorem decoded_eq_real_iff {v : Json} {x : Binary64} : v.decoded = .real x ↔ v = .real x := by
  cases v <;> simp [decoded]

theorem reloaded_real_eq_ok_iff {x : Binary64} {room : Nat} :
    (Json.real x).reloaded room = .ok (.real x) ↔ Reread x := by
  unfold Reread Json.read
  rw [reloaded]
  cases readText x.dataText with
  | error e => simp [Except.mapError]
  | ok v => simp [Except.mapError, decoded_eq_real_iff]

theorem reread_iff {x : Binary64} : Reread x ↔ digitsRead x = .ok (.real x) := by
  rw [← reloaded_real x fullRoom, reloaded_real_eq_ok_iff]

section

variable {f : Binary64 → Json}

mutual

/-- A value is read with what is read for its doubles in their place, unless
    it is nested too deeply. -/
theorem reloaded_eq_mapReals : ∀ (v : Json), (∀ x, .real x ∈ v.atoms → digitsRead x = .ok (f x)) →
    ∀ {room : Nat}, 0 < room →
      v.reloaded room = if v.height < room then .ok (v.mapReals f) else .error .nestingTooDeep
  | .null, _, room, hroom => (if_pos hroom).symm
  | .boolean _, _, room, hroom => (if_pos hroom).symm
  | .integer _, _, room, hroom => (if_pos hroom).symm
  | .text _, _, room, hroom => (if_pos hroom).symm
  | .real x, hreals, room, hroom => by
    rw [reloaded_real, hreals x List.mem_cons_self]
    exact (if_pos hroom).symm
  | .array items, hreals, room, hroom => by
    rw [reloaded, height]
    -- Opening the array takes one level, and the height counts it.
    by_cases hone : room ≤ 1
    · rw [if_pos hone, if_neg (by omega)]
    · rw [if_neg hone, reloadedItems_eq_mapReals items hreals (by omega)]
      by_cases hlow : heightOfItems items < room - 1
      · rw [if_pos hlow, if_pos (by omega)]
        rfl
      · rw [if_neg hlow, if_neg (by omega)]
        rfl
  | .object members, hreals, room, hroom => by
    rw [reloaded, height]
    by_cases hone : room ≤ 1
    · rw [if_pos hone, if_neg (by omega)]
    · rw [if_neg hone, reloadedMembers_eq_mapReals members hreals (by omega)]
      by_cases hlow : heightOfMembers members < room - 1
      · rw [if_pos hlow, if_pos (by omega)]
        rfl
      · rw [if_neg hlow, if_neg (by omega)]
        rfl

theorem reloadedItems_eq_mapReals : ∀ (items : List Json),
    (∀ x, .real x ∈ atomsOfItems items → digitsRead x = .ok (f x)) →
    ∀ {room : Nat}, 0 < room → reloadedItems room items =
      if heightOfItems items < room then .ok (mapRealsOfItems f items)
      else .error .nestingTooDeep
  | [], _, room, hroom => (if_pos hroom).symm
  | item :: items, hreals, room, hroom => by
    rw [reloadedItems, heightOfItems,
      reloaded_eq_mapReals item (fun x hx => hreals x (List.mem_append_left _ hx)) hroom,
      reloadedItems_eq_mapReals items (fun x hx => hreals x (List.mem_append_right _ hx)) hroom]
    by_cases hitem : item.height < room
    · by_cases hitems : heightOfItems items < room
      · rw [if_pos hitem, if_pos hitems, if_pos (by omega)]
        rfl
      · rw [if_pos hitem, if_neg hitems, if_neg (by omega)]
        rfl
    · rw [if_neg hitem, error_bind, if_neg (by omega)]

theorem reloadedMembers_eq_mapReals : ∀ (members : List (String × Json)),
    (∀ x, .real x ∈ atomsOfMembers members → digitsRead x = .ok (f x)) →
    ∀ {room : Nat}, 0 < room → reloadedMembers room members =
      if heightOfMembers members < room then .ok (mapRealsOfMembers f members)
      else .error .nestingTooDeep
  | [], _, room, hroom => (if_pos hroom).symm
  | (key, value) :: members, hreals, room, hroom => by
    rw [reloadedMembers, heightOfMembers,
      reloaded_eq_mapReals value (fun x hx => hreals x (List.mem_append_left _ hx)) hroom,
      reloadedMembers_eq_mapReals members (fun x hx => hreals x (List.mem_append_right _ hx)) hroom]
    by_cases hvalue : value.height < room
    · by_cases hmembers : heightOfMembers members < room
      · rw [if_pos hvalue, if_pos hmembers, if_pos (by omega)]
        rfl
      · rw [if_pos hvalue, if_neg hmembers, if_neg (by omega)]
        rfl
    · rw [if_neg hvalue, error_bind, if_neg (by omega)]

end

end

/-- A value whose doubles are all found again is read as itself, unless it
    is nested too deeply. -/
theorem reloaded_eq {v : Json} (hreals : ∀ x, .real x ∈ v.atoms → Reread x) {room : Nat}
    (hroom : 0 < room) :
    v.reloaded room = if v.height < room then .ok v else .error .nestingTooDeep := by
  rw [reloaded_eq_mapReals v (fun x hx => reread_iff.mp (hreals x hx)) hroom,
    mapReals_eq_self v fun _ _ => rfl]

/-- Compact text is read as its value, in decoded form, unless the value is
    nested too deeply; and then nothing else is wrong with it. -/
theorem read_compact {v : Json} (hfits : ∀ n, .integer n ∈ v.atoms → Fits64 n)
    (hreals : ∀ x, .real x ∈ v.atoms → Reread x) :
    (v.height < fullRoom → Json.read v.compact = .ok v.decoded) ∧
      (fullRoom ≤ v.height →
        ∃ place, Json.read v.compact = .error ⟨.nestingTooDeep, place⟩) := by
  have htext := readText_compact hfits
  rw [reloaded_eq hreals (by decide)] at htext
  unfold Json.read
  constructor
  · intro hlow
    rw [if_pos hlow] at htext
    cases hread : readText v.compact with
    | ok w =>
      rw [hread] at htext
      obtain rfl := Except.ok.inj htext
      rfl
    | error e =>
      rw [hread] at htext
      cases htext
  · intro hhigh
    rw [if_neg (Nat.not_lt.mpr hhigh)] at htext
    cases hread : readText v.compact with
    | ok w =>
      rw [hread] at htext
      cases htext
    | error e =>
      rw [hread] at htext
      have hfault : e.fault = .nestingTooDeep := Except.error.inj htext
      exact ⟨.ofOffset v.compact e.offset, by rw [← hfault]; rfl⟩

end CondExpr.Json
