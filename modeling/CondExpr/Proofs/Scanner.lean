import CondExpr.Proofs.ByteOrder
import CondExpr.Proofs.Coverage

/-! # The scanner

  The scanner goes over the characters of a text. A cursor that goes over its
  bytes instead finds the same placeholders: sigils and token characters are
  ASCII, so they are single bytes, and no byte of another character is taken
  for one. That is also why the cursor never cuts inside a character, although
  it knows nothing of characters.

  What is found is exactly every sigil with the whole run of token characters
  behind it. A sigil is no token character, so a text can be cut before every
  sigil, and behind one that no run follows, and its placeholders are those of
  its parts.
-/

namespace CondExpr

/-! ## Section 1: The cursor -/

/-- The byte is a token character by itself. -/
def isTokenByte (b : UInt8) : Bool := isTokenChar (.ofUInt8 b)

/-- The byte is a sigil by itself. -/
def isSigilByte (b : UInt8) : Bool := isSigil (.ofUInt8 b)

/-- Where the placeholders of a row of bytes are, if the row begins at the
    given position: the position of the sigil, and that behind the run. The
    cursor steps over other bytes one by one and goes on behind a run. -/
def placesFrom (start : Nat) : List UInt8 → List (Nat × Nat)
  | [] => []
  | b :: rest =>
    if isSigilByte b then
      let run := rest.takeWhile isTokenByte
      let stop := start + 1 + run.length
      let others := placesFrom stop (rest.dropWhile isTokenByte)
      if run.isEmpty then others else (start, stop) :: others
    else placesFrom (start + 1) rest
termination_by bytes => bytes.length
decreasing_by
  · exact Nat.lt_succ_of_le (List.dropWhile_sublist _).length_le
  · exact Nat.lt_succ_self _

/-- The part of a text from one byte position to another. Both must lie
    between characters; else there is no such part, and the place is the
    fault. -/
def slice (text : String) (place : Nat × Nat) : Except (Nat × Nat) String :=
  if String.Pos.Raw.isValid text ⟨place.1⟩ && String.Pos.Raw.isValid text ⟨place.2⟩ then
    .ok (String.Pos.Raw.extract text ⟨place.1⟩ ⟨place.2⟩)
  else .error place

/-- Collects the placeholders of a text by a cursor that goes over its bytes. -/
def Placeholders.scanBytes (text : String) : Except (Nat × Nat) Placeholders := do
  let found ← (placesFrom 0 (utf8Bytes text)).mapM (slice text)
  return ⟨marked '#' (found.map String.toList), marked ':' (found.map String.toList)⟩

/-! ## Section 2: Bytes and characters -/

/-- The class has ASCII characters only. -/
def IsAscii (p : Char → Bool) : Prop := ∀ c, p c = true → c.toNat < 128

theorem isAscii_isTokenChar : IsAscii isTokenChar := by
  intro c h
  have hcases : c.isAlphanum = true ∨ c = '_' := by simpa [isTokenChar] using h
  rcases hcases with halphanum | rfl
  · -- The upper ends of the three ranges are ASCII.
    have hletters : (c.isUpper || c.isLower || c.isDigit) = true := halphanum
    rw [Bool.or_eq_true, Bool.or_eq_true] at hletters
    rcases hletters with (hupper | hlower) | hdigit
    · exact Nat.lt_of_le_of_lt (of_decide_eq_true hupper).2 (by decide)
    · have hends := Bool.and_eq_true_iff.mp hlower
      exact Nat.lt_of_le_of_lt (of_decide_eq_true hends.2) (by decide)
    · have hends := Bool.and_eq_true_iff.mp hdigit
      exact Nat.lt_of_le_of_lt (of_decide_eq_true hends.2) (by decide)
  · decide

theorem isAscii_isSigil : IsAscii isSigil := by
  intro c h
  have hcases : c = '#' ∨ c = ':' := by simpa [isSigil] using h
  rcases hcases with rfl | rfl <;> decide

theorem toNat_ofUInt8 (b : UInt8) : (Char.ofUInt8 b).toNat = b.toNat := by
  show b.toUInt32.toNat = b.toNat
  exact UInt8.toNat_toUInt32 b

/-- An ASCII character is one byte. -/
theorem utf8EncodeChar_of_lt {c : Char} (h : c.toNat < 128) :
    ∃ b, String.utf8EncodeChar c = [b] ∧ Char.ofUInt8 b = c := by
  have hle : c.val.toNat ≤ 127 := Nat.le_of_lt_succ h
  have hbyte : (UInt8.ofNat c.toNat).toNat = c.toNat := by
    rw [UInt8.toNat_ofNat']
    exact Nat.mod_eq_of_lt (by omega)
  refine ⟨.ofNat c.toNat, ?_, ?_⟩
  · unfold String.utf8EncodeChar
    exact if_pos hle
  · apply Char.ext
    apply UInt32.toNat_inj.mp
    exact (toNat_ofUInt8 _).trans hbyte

/-- Every byte of another character is above the ASCII ones. -/
theorem le_of_mem_utf8EncodeChar {c : Char} (h : 128 ≤ c.toNat) :
    ∀ b ∈ String.utf8EncodeChar c, 128 ≤ b.toNat := by
  have hle : ¬ c.val.toNat ≤ 127 := Nat.not_le_of_lt h
  unfold String.utf8EncodeChar
  generalize c.val.toNat = v at *
  dsimp only
  rw [if_neg hle]
  split_ifs <;> simp <;> omega

section Classes

variable {p : Char → Bool} (hp : IsAscii p)

include hp

/-- A character of an ASCII class is a byte of that class. -/
theorem IsAscii.encode_of_true {c : Char} (h : p c = true) :
    ∃ b, String.utf8EncodeChar c = [b] ∧ p (.ofUInt8 b) = true := by
  obtain ⟨b, hencode, hchar⟩ := utf8EncodeChar_of_lt (hp c h)
  exact ⟨b, hencode, by rw [hchar, h]⟩

/-- No byte of another character is in the class. -/
theorem IsAscii.encode_of_false {c : Char} (h : p c = false) :
    ∀ b ∈ String.utf8EncodeChar c, p (.ofUInt8 b) = false := by
  intro b hb
  by_cases hascii : c.toNat < 128
  · obtain ⟨b', hencode, hchar⟩ := utf8EncodeChar_of_lt hascii
    rw [hencode, List.mem_singleton] at hb
    rw [hb, hchar, h]
  · have hle := le_of_mem_utf8EncodeChar (Nat.le_of_not_lt hascii) b hb
    by_contra hclass
    have hlt := hp _ (Bool.not_eq_false _ ▸ hclass)
    rw [toNat_ofUInt8] at hlt
    omega

/-- A run of characters of the class is a run of bytes, which ends where the
    run of characters does. -/
theorem IsAscii.takeWhile_encode {run after : List Char} (hrun : ∀ c ∈ run, p c = true)
    (hafter : Stops p after) :
    ((run ++ after).flatMap String.utf8EncodeChar).takeWhile (fun b => p (.ofUInt8 b)) =
        run.flatMap String.utf8EncodeChar ∧
      ((run ++ after).flatMap String.utf8EncodeChar).dropWhile (fun b => p (.ofUInt8 b)) =
        after.flatMap String.utf8EncodeChar := by
  have hbytes : ∀ b ∈ run.flatMap String.utf8EncodeChar, p (.ofUInt8 b) = true := by
    intro b hb
    obtain ⟨c, hc, hmem⟩ := List.mem_flatMap.mp hb
    obtain ⟨b', hencode, hclass⟩ := hp.encode_of_true (hrun c hc)
    rw [hencode, List.mem_singleton] at hmem
    rw [hmem, hclass]
  rw [List.flatMap_append, List.takeWhile_append_of_pos hbytes,
    List.dropWhile_append_of_pos hbytes]
  cases after with
  | nil => simp
  | cons c after =>
    -- The first byte of the character that ends the run ends the run of bytes.
    obtain ⟨b, bytes, hencode⟩ := List.exists_cons_of_ne_nil (utf8EncodeChar_ne_nil c)
    have hclass : p (.ofUInt8 b) = false := by
      apply hp.encode_of_false (stops_cons.mp hafter)
      rw [hencode]
      exact List.mem_cons_self
    rw [List.flatMap_cons, hencode]
    simp [hclass]

end Classes

theorem length_flatMap_utf8EncodeChar (cs : List Char) :
    (cs.flatMap String.utf8EncodeChar).length = String.utf8Len cs := by
  induction cs with
  | nil => rfl
  | cons c cs ih =>
    rw [List.flatMap_cons, List.length_append, String.length_utf8EncodeChar, ih,
      String.utf8Len_cons, Nat.add_comm]

/-! ## Section 3: The cursor finds what the scanner finds -/

/-- The cursor steps over bytes that are no sigils. -/
theorem placesFrom_append {start : Nat} {front bytes : List UInt8}
    (h : ∀ b ∈ front, isSigilByte b = false) :
    placesFrom start (front ++ bytes) = placesFrom (start + front.length) bytes := by
  induction front generalizing start with
  | nil => rfl
  | cons b front ih =>
    have hb := h b List.mem_cons_self
    have hfront : placesFrom (start + 1) (front ++ bytes) =
        placesFrom (start + 1 + front.length) bytes :=
      ih fun b' hb' => h b' (List.mem_cons_of_mem b hb')
    rw [List.cons_append, placesFrom, hb, hfront, List.length_cons]
    simp [Nat.add_assoc, Nat.add_comm 1]

/-- A part of a text lies between characters and can be cut out. -/
theorem slice_eq_ok {text : String} {front part rest : List Char}
    (h : text.toList = front ++ part ++ rest) :
    slice text (String.utf8Len front, String.utf8Len front + String.utf8Len part) =
      .ok (.ofList part) := by
  have htext : text = .ofList (front ++ part ++ rest) := by rw [← h, String.ofList_toList]
  have hvalid (before after : List Char) (hsplit : text.toList = before ++ after) :
      String.Pos.Raw.isValid text ⟨String.utf8Len before⟩ = true := by
    rw [String.Pos.Raw.isValid_eq_true_iff, String.Pos.Raw.isValid_iff_exists_append]
    refine ⟨.ofList before, .ofList after, ?_, ?_⟩
    · rw [← String.ofList_append, ← hsplit, String.ofList_toList]
    · rw [String.rawEndPos_ofList]
  have hstart := hvalid front (part ++ rest) (by rw [h, List.append_assoc])
  have hstop := hvalid (front ++ part) rest h
  rw [String.utf8Len_append] at hstop
  unfold slice
  rw [hstart, hstop]
  show Except.ok (String.Pos.Raw.extract text _ _) = _
  rw [htext, String.extract_of_valid]

/-- At a sigil the cursor takes the run of bytes behind it. -/
theorem placesFrom_cons {start : Nat} {b : UInt8} {rest : List UInt8}
    (hb : isSigilByte b = true) :
    placesFrom start (b :: rest) =
      (if rest.takeWhile isTokenByte = [] then []
        else [(start, start + 1 + (rest.takeWhile isTokenByte).length)]) ++
        placesFrom (start + 1 + (rest.takeWhile isTokenByte).length)
          (rest.dropWhile isTokenByte) := by
  rw [placesFrom, if_pos hb]
  cases hrun : rest.takeWhile isTokenByte <;> rfl

/-- That is the run of characters behind it. -/
theorem placesFrom_sigil {start : Nat} {sigil : Char} {run after : List Char}
    (hsigil : isSigil sigil = true) (hrun : ∀ c ∈ run, isTokenChar c = true)
    (hafter : Stops isTokenChar after) :
    placesFrom start ((sigil :: (run ++ after)).flatMap String.utf8EncodeChar) =
      (if run = [] then [] else [(start, start + String.utf8Len (sigil :: run))]) ++
        placesFrom (start + String.utf8Len (sigil :: run))
          (after.flatMap String.utf8EncodeChar) := by
  obtain ⟨b, hencode, hbyte⟩ := isAscii_isSigil.encode_of_true hsigil
  obtain ⟨hbytes, hothers⟩ := isAscii_isTokenChar.takeWhile_encode hrun hafter
  have htake : ((run ++ after).flatMap String.utf8EncodeChar).takeWhile isTokenByte =
      run.flatMap String.utf8EncodeChar := hbytes
  have hdrop : ((run ++ after).flatMap String.utf8EncodeChar).dropWhile isTokenByte =
      after.flatMap String.utf8EncodeChar := hothers
  have hsize : sigil.utf8Size = 1 := by
    rw [← String.length_utf8EncodeChar, hencode, List.length_singleton]
  have hstop : start + 1 + (run.flatMap String.utf8EncodeChar).length =
      start + String.utf8Len (sigil :: run) := by
    rw [length_flatMap_utf8EncodeChar, String.utf8Len_cons, hsize]
    omega
  have hnil : run.flatMap String.utf8EncodeChar = [] ↔ run = [] := by
    rw [← List.length_eq_zero_iff, length_flatMap_utf8EncodeChar, String.utf8Len_eq_zero]
  rw [List.flatMap_cons, hencode, List.singleton_append, placesFrom_cons hbyte, htake, hdrop, hstop]
  simp only [hnil]

/-- A character that no run follows begins no placeholder. -/
theorem placeholdersIn_cons_of_stops (c : Char) {rest : List Char}
    (h : Stops isTokenChar rest) : placeholdersIn (c :: rest) = placeholdersIn rest := by
  have hrun : ([] ++ rest).takeWhile isTokenChar = [] := takeWhile_run (by simp) h
  rw [List.nil_append] at hrun
  rw [placeholdersIn, hrun]
  simp

/-- What is cut out at the places of the cursor is what the scanner finds,
    whatever stands before the cursor. -/
theorem map_slice_placesFrom {text : String} {front rest : List Char}
    (h : text.toList = front ++ rest) :
    (placesFrom (String.utf8Len front) (rest.flatMap String.utf8EncodeChar)).map (slice text) =
      ((placeholdersIn rest).map String.ofList).map .ok := by
  -- A run is skipped as a whole, so the induction is on the length.
  induction hlen : rest.length using Nat.strongRecOn generalizing front rest with
  | ind length ih =>
  subst hlen
  cases rest with
  | nil => simp [placesFrom, placeholdersIn]
  | cons c rest =>
    by_cases hsigil : isSigil c = true
    · obtain ⟨run, after, rfl, hrun, hafter⟩ := exists_run isTokenChar rest
      have hlen : after.length < (c :: (run ++ after)).length := by
        rw [List.length_cons, List.length_append]
        omega
      have htext : text.toList = front ++ (c :: run) ++ after := by
        rw [h, List.append_assoc]
        rfl
      have hbehind := ih after.length hlen htext rfl
      rw [String.utf8Len_append] at hbehind
      rw [placesFrom_sigil hsigil hrun hafter, List.map_append, hbehind]
      by_cases hrunNil : run = []
      · subst hrunNil
        rw [List.nil_append, placeholdersIn_cons_of_stops c hafter]
        rfl
      · rw [if_neg hrunNil, List.map_singleton, slice_eq_ok htext,
          placeholdersIn_cons_append hsigil hrunNil hrun hafter]
        rfl
    · rw [Bool.not_eq_true] at hsigil
      have htext : text.toList = front ++ [c] ++ rest := by
        rw [h, List.append_assoc]
        rfl
      have hnext := ih rest.length (Nat.lt_succ_self _) htext rfl
      have hskip : placeholdersIn (c :: rest) = placeholdersIn rest := by
        simp [placeholdersIn, hsigil]
      rw [String.utf8Len_append, String.utf8Len_cons, String.utf8Len_nil, Nat.zero_add] at hnext
      rw [List.flatMap_cons, hskip, placesFrom_append (isAscii_isSigil.encode_of_false hsigil),
        String.length_utf8EncodeChar, hnext]

/-- What the cursor cuts out of a text is what the scanner finds there. -/
theorem map_slice_places (text : String) :
    (placesFrom 0 (utf8Bytes text)).map (slice text) =
      ((placeholdersIn text.toList).map String.ofList).map .ok := by
  have htext : text.toList = [] ++ text.toList := rfl
  rw [utf8Bytes_eq]
  exact map_slice_placesFrom htext

/-- Cutting never fails, and the cursor collects what the scanner collects. -/
theorem Placeholders.scanBytes_eq_ok (text : String) : scanBytes text = .ok (scan text) := by
  have hchars : ((placeholdersIn text.toList).map String.ofList).map String.toList =
      placeholdersIn text.toList := by
    simp [Function.comp_def]
  unfold scanBytes
  rw [mapM_eq_ok_iff.mpr (map_slice_places text), ok_bind, hchars]
  rfl

/-! ## Section 4: What is found -/

/-- Somewhere in a text a sigil stands before a run of token characters; the
    run is not empty, and nothing behind it continues it. -/
structure MarkedRun (sigil : Char) (run text : List Char) : Prop where
  nonempty : run ≠ []
  tokenChars : ∀ c ∈ run, isTokenChar c = true
  placed : ∃ before after, text = before ++ sigil :: (run ++ after) ∧ Stops isTokenChar after

/-- The placeholder is a sigil of the text with the whole run behind it. -/
def PlaceholderIn (text : String) (sigil : Char) (placeholder : String) : Prop :=
  ∃ run, MarkedRun sigil run text.toList ∧ placeholder = .ofList (sigil :: run)

theorem MarkedRun.cons {sigil : Char} {run text : List Char} (h : MarkedRun sigil run text)
    (c : Char) : MarkedRun sigil run (c :: text) := by
  obtain ⟨before, after, htext, hafter⟩ := h.placed
  refine ⟨h.nonempty, h.tokenChars, c :: before, after, ?_, hafter⟩
  rw [htext]
  rfl

/-- A text can be cut wherever no run goes on, and nothing is lost. -/
theorem placeholdersIn_append_of_stops {front back : List Char} (h : Stops isTokenChar back) :
    placeholdersIn (front ++ back) = placeholdersIn front ++ placeholdersIn back := by
  induction front with
  | nil => rfl
  | cons c front ih =>
    -- The run behind a sigil of the front ends there at the latest.
    obtain ⟨run, rest, rfl, hrun, hrest⟩ := exists_run isTokenChar front
    have hfront : (run ++ rest).takeWhile isTokenChar = run := takeWhile_run hrun hrest
    have hwhole : (run ++ rest ++ back).takeWhile isTokenChar = run := by
      rw [List.append_assoc]
      exact takeWhile_run hrun (hrest.append h)
    rw [List.cons_append, placeholdersIn, hwhole, placeholdersIn, hfront, ih]
    split <;> rfl

/-- No sigil continues a run. -/
theorem stops_sigil {sigil : Char} (hsigil : isSigil sigil = true) (rest : List Char) :
    Stops isTokenChar (sigil :: rest) := by
  rw [stops_cons, Bool.eq_false_iff]
  intro htoken
  rw [isSigil_eq_false htoken] at hsigil
  cases hsigil

/-- The scanner finds exactly the sigils with the whole runs behind them. -/
theorem mem_placeholdersIn_iff {text found : List Char} :
    found ∈ placeholdersIn text ↔
      ∃ sigil run, isSigil sigil = true ∧ MarkedRun sigil run text ∧ found = sigil :: run := by
  constructor
  · intro h
    induction text with
    | nil => simp [placeholdersIn] at h
    | cons c rest ih =>
      have hlater (hrest : found ∈ placeholdersIn rest) :
          ∃ sigil run, isSigil sigil = true ∧ MarkedRun sigil run (c :: rest) ∧
            found = sigil :: run := by
        obtain ⟨sigil, run, hsigil, hmarked, hfound⟩ := ih hrest
        exact ⟨sigil, run, hsigil, hmarked.cons c, hfound⟩
      obtain ⟨run, after, hsplit, hrun, hafter⟩ := exists_run isTokenChar rest
      have htake : rest.takeWhile isTokenChar = run := by
        rw [hsplit, takeWhile_run hrun hafter]
      rw [placeholdersIn, htake] at h
      -- What is found is found here, or it is found in the rest.
      by_cases hhere : isSigil c = true ∧ run ≠ []
      · obtain ⟨hsigil, hne⟩ := hhere
        rw [if_pos (by simp [hsigil, hne])] at h
        rcases List.mem_cons.mp h with rfl | h
        · exact ⟨c, run, hsigil, ⟨hne, hrun, [], after, by rw [hsplit]; rfl, hafter⟩, rfl⟩
        · exact hlater h
      · rw [if_neg (by simpa using hhere)] at h
        exact hlater h
  · intro h
    obtain ⟨sigil, run, hsigil, ⟨hne, hrun, before, after, rfl, hafter⟩, rfl⟩ := h
    rw [placeholdersIn_append_of_stops (stops_sigil hsigil _),
      placeholdersIn_cons_append hsigil hne hrun hafter]
    exact List.mem_append_right _ List.mem_cons_self

namespace Placeholders

theorem mem_keys_marked_iff_placeholderIn {text : String} {sigil : Char} {key : String}
    (hsigil : isSigil sigil = true) :
    key ∈ (marked sigil (placeholdersIn text.toList)).keys ↔ PlaceholderIn text sigil key := by
  rw [mem_keys_marked_iff, mem_placeholdersIn_iff]
  constructor
  · intro h
    obtain ⟨⟨sigil', run, _, hmarked, hkey⟩, hhead⟩ := h
    rw [hkey, List.head?_cons] at hhead
    obtain rfl : sigil' = sigil := Option.some.inj hhead
    exact ⟨run, hmarked, by rw [← hkey, String.ofList_toList]⟩
  · intro h
    obtain ⟨run, hmarked, rfl⟩ := h
    rw [String.toList_ofList]
    exact ⟨⟨sigil, run, hsigil, hmarked, rfl⟩, rfl⟩

theorem mem_names_scan_iff {text key : String} :
    key ∈ (scan text).names.keys ↔ PlaceholderIn text '#' key :=
  mem_keys_marked_iff_placeholderIn (by decide)

theorem mem_values_scan_iff {text key : String} :
    key ∈ (scan text).values.keys ↔ PlaceholderIn text ':' key :=
  mem_keys_marked_iff_placeholderIn (by decide)

/-- Wherever the cursor cuts, it cuts between characters. -/
theorem isValid_of_mem_placesFrom {text : String} {place : Nat × Nat}
    (h : place ∈ placesFrom 0 (utf8Bytes text)) :
    String.Pos.Raw.IsValid text ⟨place.1⟩ ∧ String.Pos.Raw.IsValid text ⟨place.2⟩ := by
  have hslice : slice text place ∈ ((placeholdersIn text.toList).map String.ofList).map .ok := by
    rw [← map_slice_places]
    exact List.mem_map_of_mem h
  obtain ⟨part, _, hpart⟩ := List.mem_map.mp hslice
  by_cases hboth : String.Pos.Raw.isValid text ⟨place.1⟩ && String.Pos.Raw.isValid text ⟨place.2⟩
  · rw [Bool.and_eq_true] at hboth
    exact ⟨String.Pos.Raw.isValid_eq_true_iff.mp hboth.1,
      String.Pos.Raw.isValid_eq_true_iff.mp hboth.2⟩
  · rw [slice, if_neg hboth] at hpart
    cases hpart

/-- **The scanner is exact.** A cursor that goes over the bytes of a text cuts
    between characters only and collects what the scanner collects: as names
    exactly the `#`, and as values exactly the `:`, with the whole non-empty
    runs of token characters behind them. A sigil that no token character
    follows, be it at the end of the text, before another sigil or before any
    other character, adds nothing to what is found on both sides of it and
    hides nothing. -/
theorem scan_exact (text : String) :
    (∀ place ∈ placesFrom 0 (utf8Bytes text),
      String.Pos.Raw.IsValid text ⟨place.1⟩ ∧ String.Pos.Raw.IsValid text ⟨place.2⟩) ∧
    scanBytes text = .ok (scan text) ∧
    (∀ key, key ∈ (scan text).names.keys ↔ PlaceholderIn text '#' key) ∧
    (∀ key, key ∈ (scan text).values.keys ↔ PlaceholderIn text ':' key) ∧
    ∀ front sigil rest, isSigil sigil = true → Stops isTokenChar rest →
      text.toList = front ++ sigil :: rest →
        placeholdersIn text.toList = placeholdersIn front ++ placeholdersIn rest := by
  refine ⟨fun _ => isValid_of_mem_placesFrom, scanBytes_eq_ok text, fun _ => mem_names_scan_iff,
    fun _ => mem_values_scan_iff, ?_⟩
  intro front sigil rest hsigil hrest htext
  rw [htext, placeholdersIn_append_of_stops (stops_sigil hsigil rest),
    placeholdersIn_cons_of_stops sigil hrest]

/-- Sigils side by side, beside longer characters and at the end. -/
theorem scan_exact_adjacent_sigils :
    isSigil '#' = true ∧ Stops isTokenChar "é:b#".toList ∧
      "#a1é##é:b#".toList = "#a1é#".toList ++ '#' :: "é:b#".toList ∧
      placeholdersIn "#a1é##é:b#".toList =
        placeholdersIn "#a1é#".toList ++ placeholdersIn "é:b#".toList ∧
      (scan "#a1é##é:b#").names.keys = ["#a1"] ∧ (scan "#a1é##é:b#").values.keys = [":b"] := by
  have hsigil : isSigil '#' = true := by decide
  have hstops : Stops isTokenChar "é:b#".toList := stops_cons.mpr (by decide)
  obtain ⟨_, _, _, _, hcut⟩ := scan_exact "#a1é##é:b#"
  exact ⟨hsigil, hstops, by decide, hcut _ _ _ hsigil hstops (by decide), by decide +kernel,
    by decide +kernel⟩

end Placeholders
end CondExpr
