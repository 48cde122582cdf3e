import CondExpr.Instant.Basic
import CondExpr.Text.Padded

/-! # Written instants

  Three written forms, all in UTC:

  - *fixed*: `2021-07-09T22:41:05.578Z`, always three decimals;
  - *stored*: `2021-07-09T22:41:05.5Z` is written `…05.500Z`, with none,
    three, six or nine decimals, the fewest that lose nothing;
  - *shown*: `2021-07-09 22:41:05.500 UTC`, decimals as in the stored form.
-/

namespace CondExpr.Instant

/-- A year in four digits; outside 0 to 9999 with a sign and at least four. -/
def yearDigits (year : Int) : List Char :=
  if 0 ≤ year ∧ year ≤ 9999 then padded 4 year.toNat
  else (if year < 0 then '-' else '+') :: padded 4 year.natAbs

/-- The day, `YYYY-MM-DD`. -/
def dayDigits (t : Instant) : List Char :=
  let date := t.date
  yearDigits date.year ++ '-' :: padded 2 date.month ++ '-' :: padded 2 date.day

/-- The time of day to the second, `HH:MM:SS`. -/
def clockDigits (t : Instant) : List Char :=
  padded 2 t.hour ++ ':' :: padded 2 t.minute ++ ':' :: padded 2 t.second

/-- The decimals of a fraction of nanoseconds, with their point: the
    shortest of 0, 3, 6 and 9 that are exact. -/
def fractionDigits (nanos : Nat) : List Char :=
  if nanos = 0 then []
  else if nanos % 1000000 = 0 then '.' :: padded 3 (nanos / 1000000)
  else if nanos % 1000 = 0 then '.' :: padded 6 (nanos / 1000)
  else '.' :: padded 9 nanos

/-- The fixed form; what is finer than a millisecond is cut off. -/
def fixed (t : Instant) : String :=
  .ofList (t.dayDigits ++ 'T' :: t.clockDigits ++ '.' :: padded 3 (t.fraction / 1000000) ++ ['Z'])

/-- The stored form. -/
def stored (t : Instant) : String :=
  .ofList (t.dayDigits ++ 'T' :: t.clockDigits ++ fractionDigits t.fraction ++ ['Z'])

/-- The shown form. -/
def shown (t : Instant) : String :=
  .ofList (t.dayDigits ++ ' ' :: t.clockDigits ++ fractionDigits t.fraction ++ " UTC".toList)

end CondExpr.Instant
