import CondExpr.Json.Error
import CondExpr.Json.Numeral
import CondExpr.Text.Hex

/-! # Reading JSON text

  Reads one JSON value from a text, or finds the first fault and its
  place. Arrays and objects may be nested 127 deep.

  A value can also be *skipped*. Then only its form is checked: nesting has
  no limit, numbers no range, and escapes need not make characters.
-/

namespace CondExpr.Json

/-! ## Section 1: Cursors -/

/-- What remains of a text, and how many bytes precede it. -/
structure Cursor where
  rest : List Char
  offset : Nat
  deriving DecidableEq, Repr

/-- The cursor at the start of a text. -/
def Cursor.start (text : String) : Cursor := ⟨text.toList, 0⟩

/-- Moves over one character. -/
def Cursor.advance (c : Cursor) : Cursor :=
  match c.rest with
  | [] => c
  | first :: rest => ⟨rest, c.offset + first.utf8Size⟩

/-- A fault and the number of bytes before its place. -/
structure FaultAt where
  fault : JsonFault
  offset : Nat
  deriving DecidableEq, Repr

/-- A fault in what has been read. -/
def Cursor.fail {α : Type} (c : Cursor) (fault : JsonFault) : Except FaultAt α :=
  .error ⟨fault, c.offset⟩

/-- A fault in the byte that comes next, which counts as read unless the
    text is at its end. -/
def Cursor.failNext {α : Type} (c : Cursor) (fault : JsonFault) : Except FaultAt α :=
  .error ⟨fault, if c.rest.isEmpty then c.offset else c.offset + 1⟩

/-- Space, tab, line feed and carriage return. -/
def isJsonBlank (c : Char) : Bool := c = ' ' || c = '\n' || c = '\t' || c = '\r'

/-- Moves over blanks. -/
def Cursor.skipBlanks (c : Cursor) : Cursor :=
  let blanks := c.rest.takeWhile isJsonBlank
  ⟨c.rest.drop blanks.length, c.offset + blanks.length⟩

/-- Splits off the leading digits. -/
def Cursor.takeDigits (c : Cursor) : List Char × Cursor :=
  let digits := c.rest.takeWhile Char.isDigit
  (digits, ⟨c.rest.drop digits.length, c.offset + digits.length⟩)

/-- Whether a value is read or only skipped. -/
inductive ReadMode where
  | keep
  | skip
  deriving DecidableEq, Repr

/-! ## Section 2: Strings -/

/-- The four hexadecimal digits of an escape. The next four bytes count as
    read whether they are digits or not. -/
def readHex (c : Cursor) : Except FaultAt (Nat × Cursor) :=
  let size := (String.ofList (c.rest.take 4)).utf8ByteSize
  if size < 4 then .error ⟨.endInString, c.offset + size⟩
  else
    match hexNumber? (c.rest.take 4) with
    | some n => .ok (n, ⟨c.rest.drop 4, c.offset + 4⟩)
    | none => .error ⟨.invalidEscape, c.offset + 4⟩

/-- The first half of a surrogate pair. -/
def isHighSurrogate (n : Nat) : Bool := 0xD800 ≤ n && n ≤ 0xDBFF

/-- The second half of a surrogate pair. -/
def isLowSurrogate (n : Nat) : Bool := 0xDC00 ≤ n && n ≤ 0xDFFF

/-- Moves over a character that an escape cannot do without. -/
def readEscapeMark (mark : Char) (c : Cursor) : Except FaultAt Cursor :=
  match c.rest with
  | [] => c.fail .endInString
  | first :: _ => if first = mark then .ok c.advance else c.failNext .endOfEscape

/-- The character of a `\u` escape, after the `u`. Characters beyond the
    first 65536 take two escapes, one for each half of a surrogate pair. -/
def readUnicodeEscape (mode : ReadMode) (c : Cursor) : Except FaultAt (Char × Cursor) := do
  let (high, c) ← readHex c
  if mode = .skip then return (' ', c)
  else if isLowSurrogate high then c.fail .loneSurrogate
  else if isHighSurrogate high then do
    let c ← readEscapeMark '\\' c
    let c ← readEscapeMark 'u' c
    let (low, c) ← readHex c
    if isLowSurrogate low then
      return (Char.ofNat ((high - 0xD800) * 1024 + (low - 0xDC00) + 0x10000), c)
    else c.fail .loneSurrogate
  else return (Char.ofNat high, c)

/-- The character of an escape, after the backslash. -/
def readEscape (mode : ReadMode) (c : Cursor) : Except FaultAt (Char × Cursor) :=
  match c.rest with
  | [] => c.fail .endInString
  | first :: _ =>
    let next := c.advance
    match first with
    | '"' => .ok ('"', next)
    | '\\' => .ok ('\\', next)
    | '/' => .ok ('/', next)
    | 'b' => .ok (Char.ofNat 0x08, next)
    | 'f' => .ok (Char.ofNat 0x0C, next)
    | 'n' => .ok ('\n', next)
    | 'r' => .ok ('\r', next)
    | 't' => .ok ('\t', next)
    | 'u' => readUnicodeEscape mode next
    | _ => c.failNext .invalidEscape

/-- The characters of a string up to its closing quote, in front of which
    `before` has been read, last character first. The fuel is at least the
    number of characters left. -/
def readStringBody (mode : ReadMode) :
    Nat → List Char → Cursor → Except FaultAt (String × Cursor)
  | 0, _, c => c.fail .endInString
  | fuel + 1, before, c =>
    match c.rest with
    | [] => c.fail .endInString
    | first :: _ =>
      if first = '"' then .ok (String.ofList before.reverse, c.advance)
      else if first = '\\' then do
        let (escaped, c) ← readEscape mode c.advance
        readStringBody mode fuel (escaped :: before) c
      else if first.toNat < 0x20 then
        match mode with
        | .keep => c.failNext .controlCharacter
        | .skip => c.fail .controlCharacter
      else readStringBody mode fuel (first :: before) c.advance

/-- A string, after its opening quote. -/
def readString (mode : ReadMode) (c : Cursor) : Except FaultAt (String × Cursor) :=
  readStringBody mode (c.rest.length + 1) [] c

/-! ## Section 3: Numbers -/

/-- The next character is a digit. -/
def Cursor.atDigit (c : Cursor) : Bool := c.rest.head?.any Char.isDigit

/-- The next character is the given one. -/
def Cursor.at (c : Cursor) (char : Char) : Bool := c.rest.head? = some char

/-- The next character begins an exponent. -/
def Cursor.atExponent (c : Cursor) : Bool := c.at 'e' || c.at 'E'

/-- The number of a significand and an exponent that have been read. -/
def finishNumber (negative : Bool) (significand : Nat) (exponent : Int) (c : Cursor) :
    Except FaultAt (Json × Cursor) :=
  match ofParts? negative significand exponent with
  | some x => .ok (.real x, c)
  | none => c.fail .numberOutOfRange

/-- Adds digits to a number as long as the sum stays below a limit. Gives
    the sum, how many digits went into it, and where it stopped. -/
def takeBelow (limit : Nat) : List Char → Nat → Nat → Nat × Nat
  | [], sum, count => (sum, count)
  | digit :: rest, sum, count =>
    let sum' := sum * 10 + (digit.toNat - 48)
    if sum' < limit then takeBelow limit rest sum' (count + 1) else (sum, count)

/-- The exponent, at its `e`. If it does not fit, reading stops after the
    digit that was too many when the number is too large, and goes on to
    the end of the digits when it is zero. -/
def readExponent (negative : Bool) (significand : Nat) (exponent : Int) (c : Cursor) :
    Except FaultAt (Json × Cursor) :=
  let c := c.advance
  let down := c.at '-'
  let c := if down || c.at '+' then c.advance else c
  match c.rest with
  | [] => c.fail .endInValue
  | first :: _ =>
    if !first.isDigit then c.failNext .invalidNumber
    else
      let (digits, after) := c.takeDigits
      -- Fewer digits taken than there are: the exponent does not fit.
      let (written, count) := takeBelow exponentLimit digits 0 0
      if count < digits.length then
        if significand ≠ 0 && !down then .error ⟨.numberOutOfRange, c.offset + count + 1⟩
        else .ok (.real (.signedZero negative), after)
      else
        let exponent := if down then exponent - written else exponent + written
        finishNumber negative significand exponent after

/-- The decimals, at their point. -/
def readDecimals (negative : Bool) (significand : Nat) (exponent : Int) (c : Cursor) :
    Except FaultAt (Json × Cursor) :=
  let (digits, after) := c.advance.takeDigits
  if digits.isEmpty then
    after.failNext (if after.rest.isEmpty then .endInValue else .invalidNumber)
  else
    let (significand, count) := takeBelow significandLimit digits significand 0
    let exponent := exponent - count
    if after.atExponent then readExponent negative significand exponent after
    else finishNumber negative significand exponent after

/-- A number, after its sign. -/
def readNumber (negative : Bool) (c : Cursor) : Except FaultAt (Json × Cursor) :=
  match c.rest with
  | [] => c.fail .endInValue
  | first :: _ =>
    if !first.isDigit then c.failNext .invalidNumber
    else if first = '0' && c.advance.atDigit then c.advance.failNext .invalidNumber
    else
      let (digits, after) := c.takeDigits
      let (significand, count) := takeBelow significandLimit digits 0 0
      let dropped := digits.length - count
      if after.at '.' then readDecimals negative significand dropped after
      else if after.atExponent then readExponent negative significand dropped after
      else if dropped = 0 then .ok (ofInteger negative significand, after)
      else finishNumber negative significand dropped after

/-- Moves over an exponent, at its `e`. -/
def skipExponent (c : Cursor) : Except FaultAt (Json × Cursor) :=
  let c := c.advance
  let c := if c.at '-' || c.at '+' then c.advance else c
  if c.atDigit then .ok (.null, c.takeDigits.2) else c.failNext .invalidNumber

/-- Moves over a number, after its sign. -/
def skipNumber (c : Cursor) : Except FaultAt (Json × Cursor) :=
  if !c.atDigit then c.failNext .invalidNumber
  else if c.at '0' && c.advance.atDigit then c.advance.failNext .invalidNumber
  else
    let (_, c) := c.takeDigits
    if c.at '.' then
      let (digits, c) := c.advance.takeDigits
      if digits.isEmpty then c.failNext .invalidNumber
      else if c.atExponent then skipExponent c
      else .ok (.null, c)
    else if c.atExponent then skipExponent c
    else .ok (.null, c)

/-- A number, read or skipped, after its sign. -/
def numberIn (mode : ReadMode) (negative : Bool) (c : Cursor) : Except FaultAt (Json × Cursor) :=
  match mode with
  | .keep => readNumber negative c
  | .skip => skipNumber c

/-! ## Section 4: Values -/

/-- Moves over the letters of a word. -/
def readWord (value : Json) : List Char → Cursor → Except FaultAt (Json × Cursor)
  | [], c => .ok (value, c)
  | letter :: letters, c =>
    match c.rest with
    | [] => c.fail .endInValue
    | first :: _ =>
      if first = letter then readWord value letters c.advance else c.failNext .expectedWord

/-- Moves over the colon after a key. -/
def readColon (c : Cursor) : Except FaultAt Cursor :=
  let c := c.skipBlanks
  match c.rest with
  | [] => c.fail .endInObject
  | first :: _ => if first = ':' then .ok c.advance else c.failNext .expectedColon

/-- What an array does next. -/
inductive Continuation where
  /-- It ends; the cursor is behind its end. -/
  | done
  /-- Another item or member begins; the cursor is at it. -/
  | more
  deriving DecidableEq, Repr

/-- Finds out whether an array goes on. -/
def nextItem (mode : ReadMode) (first : Bool) (c : Cursor) :
    Except FaultAt (Continuation × Cursor) :=
  let c := c.skipBlanks
  if c.rest.isEmpty then c.fail .endInList
  else if c.at ']' then .ok (.done, c.advance)
  else if first then .ok (.more, c)
  else if c.at ',' then
    let c := c.advance.skipBlanks
    if c.rest.isEmpty then c.fail .endInValue
    else if c.at ']' then
      c.failNext (if mode = .keep then .trailingComma else .expectedValue)
    else .ok (.more, c)
  else c.failNext .expectedListEnd

/-- Finds out whether an object goes on; if it does, the cursor is behind
    the quote that opens the next key. -/
def nextMember (mode : ReadMode) (first : Bool) (c : Cursor) :
    Except FaultAt (Continuation × Cursor) :=
  let c := c.skipBlanks
  if c.rest.isEmpty then c.fail .endInObject
  else if c.at '\x7d' then .ok (.done, c.advance)
  else if first then
    if c.at '"' then .ok (.more, c.advance) else c.failNext .keyNotString
  else if c.at ',' then
    let c := c.advance.skipBlanks
    if c.rest.isEmpty then c.fail (if mode = .keep then .endInValue else .endInObject)
    else if c.at '"' then .ok (.more, c.advance)
    else if c.at '\x7d' && mode = .keep then c.failNext .trailingComma
    else c.failNext .keyNotString
  else c.failNext .expectedObjectEnd

/-- How many arrays and objects may still be opened, after one more. -/
def opened (mode : ReadMode) (room : Nat) (c : Cursor) : Except FaultAt Nat :=
  match mode with
  | .skip => .ok room
  | .keep => if room ≤ 1 then c.failNext .nestingTooDeep else .ok (room - 1)

mutual

/-- A value. Fuel of twice the number of characters left, and two more, is
    enough, since every second step reads one. -/
def readValue (mode : ReadMode) : Nat → Nat → Cursor → Except FaultAt (Json × Cursor)
  | 0, _, c => c.fail .endInValue
  | fuel + 1, room, c => do
    let c := c.skipBlanks
    match c.rest with
    | [] => c.fail .endInValue
    | first :: _ =>
      if first = 'n' then readWord .null ['u', 'l', 'l'] c.advance
      else if first = 't' then readWord (.boolean true) ['r', 'u', 'e'] c.advance
      else if first = 'f' then readWord (.boolean false) ['a', 'l', 's', 'e'] c.advance
      else if first = '-' then numberIn mode true c.advance
      else if first.isDigit then numberIn mode false c
      else if first = '"' then do
        let (s, c) ← readString mode c.advance
        return (.text s, c)
      else if first = '[' then do
        let room ← opened mode room c
        readItems mode fuel room [] c.advance
      else if first = '\x7b' then do
        let room ← opened mode room c
        readMembers mode fuel room [] c.advance
      else c.failNext .expectedValue

/-- The items of an array up to its end, after those in `before`, which
    come last item first. -/
def readItems (mode : ReadMode) :
    Nat → Nat → List Json → Cursor → Except FaultAt (Json × Cursor)
  | 0, _, _, c => c.fail .endInList
  | fuel + 1, room, before, c => do
    match ← nextItem mode before.isEmpty c with
    | (.done, c) => return (.array before.reverse, c)
    | (.more, c) => do
      let (item, c) ← readValue mode fuel room c
      readItems mode fuel room (item :: before) c

/-- The members of an object up to its end, after those in `before`, which
    come last member first. -/
def readMembers (mode : ReadMode) :
    Nat → Nat → List (String × Json) → Cursor → Except FaultAt (Json × Cursor)
  | 0, _, _, c => c.fail .endInObject
  | fuel + 1, room, before, c => do
    match ← nextMember mode before.isEmpty c with
    | (.done, c) => return (.object before.reverse, c)
    | (.more, c) => do
      let (key, c) ← readString mode c
      let c ← readColon c
      let (value, c) ← readValue mode fuel room c
      readMembers mode fuel room ((key, value) :: before) c

end

/-! ## Section 5: Whole texts -/

/-- The nesting that a text starts with: its 128th level is too deep. -/
abbrev fullRoom : Nat := 128

/-- Fuel for any value that begins at a cursor. -/
def Cursor.fuel (c : Cursor) : Nat := 2 * c.rest.length + 2

/-- Nothing but blanks may follow. -/
def readEnd (c : Cursor) : Except FaultAt Unit :=
  let c := c.skipBlanks
  if c.rest.isEmpty then .ok () else c.failNext .trailingCharacters

/-- Puts the place of a fault into lines and columns. -/
def FaultAt.inText (text : String) (e : FaultAt) : JsonError :=
  ⟨e.fault, .ofOffset text e.offset⟩

/-- Reads a text that holds one value. -/
def readText (text : String) : Except FaultAt Json := do
  let start := Cursor.start text
  let (value, c) ← readValue .keep start.fuel fullRoom start
  readEnd c
  return value

/-- Decodes a text that holds one value. -/
def read (text : String) : Except JsonError Json :=
  match readText text with
  | .ok value => .ok value.decoded
  | .error e => .error (e.inText text)

end CondExpr.Json
