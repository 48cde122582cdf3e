import CondExpr.Instant.Basic
import CondExpr.Number.Notation
import CondExpr.Text.Blank

/-! # Reading instants

  Reads a date, a time of day and an offset, as in
  `2021-07-09T22:41:05.578+02:00`. The form is that of RFC 3339 with some
  liberties: blanks before each number, before `-` and `:` and at the end;
  numbers without leading zeros; `T`, `t` or a space between day and time;
  any count of decimals, of which nine are read; the offset also as `Z`,
  `z` or `UTC`, and with the colon left out. A year of other than up to
  four digits needs a sign.

  The first fault from the left is reported. Each number is checked
  against its own range as soon as it is read; whether the day exists is
  checked at the end.
-/

namespace CondExpr

/-- Why a text is no instant. -/
inductive InstantError where
  /-- The text ends too early. -/
  | premature
  /-- A character that cannot stand where it does. -/
  | invalidCharacter
  /-- A number too large or too small, or a day that does not exist. -/
  | outOfRange
  /-- Something follows the offset. -/
  | trailing
  /-- The offset leads outside the years that instants cover. -/
  | impossible
  deriving DecidableEq, Repr

/-- The wording of an instant error. -/
def InstantError.message : InstantError → String
  | .premature => "premature end of input"
  | .invalidCharacter => "input contains invalid characters"
  | .outOfRange => "input is out of range"
  | .trailing => "trailing input"
  | .impossible => "no possible date and time matching input"

namespace Instant

/-! ## Section 1: Parts of the text -/

/-- A reader of one part: its value and the rest of the text. -/
abbrev PartReader (α : Type) := List Char → Except InstantError (α × List Char)

/-- A number of one to `most` digits at the very start. -/
def readDigits (most : Nat) : PartReader Nat
  | [] => .error .premature
  | cs@(c :: _) =>
    if c.isDigit then
      let digits := (cs.take most).takeWhile Char.isDigit
      .ok (digitsValue digits, cs.drop digits.length)
    else .error .invalidCharacter

/-- A number of one or two digits after blanks, within bounds. -/
def readNumber (least greatest : Nat) : PartReader Nat := fun cs => do
  let (n, rest) ← readDigits 2 (dropBlanks cs)
  if least ≤ n ∧ n ≤ greatest then .ok (n, rest) else .error .outOfRange

/-- A year after blanks: with a sign any number of digits, else up to four. -/
def readYear : PartReader Int := fun cs => do
  let body := dropBlanks cs
  let (year, rest) ← match body with
    | '-' :: digits => do
      let (n, rest) ← readDigits digits.length digits
      pure (-(n : Int), rest)
    | '+' :: digits => do
      let (n, rest) ← readDigits digits.length digits
      pure ((n : Int), rest)
    | _ => do
      let (n, rest) ← readDigits 4 body
      pure ((n : Int), rest)
  if -(twoPow 31 : Int) ≤ year ∧ year < (twoPow 31 : Int) then .ok (year, rest)
  else .error .outOfRange

/-- A separator after blanks. -/
def readMark (mark : Char) : PartReader Unit := fun cs =>
  match dropBlanks cs with
  | [] => .error .premature
  | c :: rest => if c = mark then .ok ((), rest) else .error .invalidCharacter

/-- The separator of day and time. -/
def readDivider : PartReader Unit
  | [] => .error .premature
  | c :: rest =>
    if c = 'T' ∨ c = 't' ∨ c = ' ' then .ok ((), rest) else .error .invalidCharacter

/-- Decimals of the second, if there is a point: as nanoseconds. -/
def readFraction : PartReader Nat
  | '.' :: cs => do
    let (n, rest) ← readDigits 9 cs
    let scale := 9 - (cs.length - rest.length)
    .ok (n * tenPow scale, rest.dropWhile Char.isDigit)
  | cs => .ok (0, cs)

/-- Two digits at the very start. The length is that of the encoded text,
    so a character beyond ASCII is invalid rather than missing. -/
def readTwoDigits : PartReader Nat
  | [] => .error .premature
  | [c] => if c.utf8Size < 2 then .error .premature else .error .invalidCharacter
  | c :: d :: rest =>
    if c.isDigit ∧ d.isDigit then .ok (digitsValue [c, d], rest) else .error .invalidCharacter

/-- The offset from UTC, in seconds. -/
def readOffset : PartReader Int := fun cs =>
  match cs with
  | [] => .error .premature
  | sign :: rest => do
    if sign = 'Z' ∨ sign = 'z' then .ok (0, rest)
    else if (cs.take 3).map Char.toUpper = ['U', 'T', 'C'] then .ok (0, cs.drop 3)
    else if sign = '+' ∨ sign = '-' ∨ sign = '−' then
      let (hours, rest) ← readTwoDigits rest
      let (minutes, rest) ← readTwoDigits (rest.dropWhile fun c => c = ':' || isBlank c)
      if minutes < 60 then
        let seconds : Int := hours * 3600 + minutes * 60
        .ok (if sign = '+' then seconds else -seconds, rest)
      else .error .outOfRange
    else .error .invalidCharacter

/-! ## Section 2: The whole text -/

/-- The instant of a day, a clock reading and an offset. Second 60 is the
    leap second after second 59. -/
def ofParts (date : CivilDate) (hour minute second nanos : Nat) (offset : Int) :
    Except InstantError Instant :=
  if ¬ date.Valid ∨ date.year < -262143 ∨ 262142 < date.year then .error .outOfRange
  else if offset ≤ -86400 ∨ 86400 ≤ offset then .error .outOfRange
  else
    -- A leap second is kept in the fraction of the second before it.
    let (second, nanos) := if second = 60 then (59, nanos + 1000000000) else (second, nanos)
    let seconds := date.dayNumber * 86400 + hour * 3600 + minute * 60 + second - offset
    match ofUnix? seconds nanos with
    | some t => .ok t
    | none => .error .impossible

/-- Reads an instant. -/
def read (text : String) : Except InstantError Instant := do
  let (year, cs) ← readYear text.toList
  let (_, cs) ← readMark '-' cs
  let (month, cs) ← readNumber 1 12 cs
  let (_, cs) ← readMark '-' cs
  let (day, cs) ← readNumber 1 31 cs
  let (_, cs) ← readDivider cs
  let (hour, cs) ← readNumber 0 23 cs
  let (_, cs) ← readMark ':' cs
  let (minute, cs) ← readNumber 0 59 cs
  let (_, cs) ← readMark ':' cs
  let (second, cs) ← readNumber 0 60 cs
  let (nanos, cs) ← readFraction cs
  let (offset, cs) ← readOffset (dropBlanks cs)
  if (dropBlanks cs).isEmpty then ofParts ⟨year, month, day⟩ hour minute second nanos offset
  else .error .trailing

end Instant
end CondExpr
