import CondExpr.Instant.Calendar

/-! # Instants

  Points in time with nanoseconds, as whole seconds since 1 January 1970
  UTC and a fraction. During a leap second the seconds stand still and the
  fraction runs on from one second to two. That can be so after any second,
  not only after the last one of a minute, where clocks have leap seconds.
-/

namespace CondExpr

/-- A point in time, in the years from -262143 to 262142. -/
structure Instant where
  /-- Whole seconds since the epoch, rounded down. -/
  seconds : Int
  /-- The fraction in nanoseconds; one second or more inside a leap second. -/
  nanos : Nat
  nanos_lt : nanos < 2000000000
  seconds_ge : -8334601228800 ≤ seconds
  seconds_le : seconds ≤ 8210266876799
  deriving DecidableEq, Repr

namespace Instant

/-- The instant with the given seconds and nanoseconds, if there is one. -/
def ofUnix? (seconds : Int) (nanos : Nat) : Option Instant :=
  if h : nanos < 2000000000 ∧ -8334601228800 ≤ seconds ∧ seconds ≤ 8210266876799 then
    some ⟨seconds, nanos, h.1, h.2.1, h.2.2⟩
  else none

/-- The day in UTC. -/
def date (t : Instant) : CivilDate := .ofDayNumber (t.seconds / 86400)

/-- Seconds since midnight UTC. -/
def secondOfDay (t : Instant) : Nat := (t.seconds % 86400).toNat

/-- The hour of the day. -/
def hour (t : Instant) : Nat := t.secondOfDay / 3600

/-- The minute of the hour. -/
def minute (t : Instant) : Nat := t.secondOfDay / 60 % 60

/-- Inside a leap second. -/
def isLeap (t : Instant) : Bool := 1000000000 ≤ t.nanos

/-- The second of the minute as it is shown: one more inside a leap second,
    which makes it 60 at the end of a minute. -/
def second (t : Instant) : Nat := t.secondOfDay % 60 + (if t.isLeap then 1 else 0)

/-- Nanoseconds since the second shown began. -/
def fraction (t : Instant) : Nat := t.nanos % 1000000000

end Instant
end CondExpr
