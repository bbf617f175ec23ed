import KitTemplate.Instant
import KitTemplate.Rounding
import KitTemplate.Text.Basic

/-! Dates of posts. The time at which a file was changed is taken in seconds, as a number of double
precision, and its date is what the local clock shows in that second, with the microseconds of the
number to the nearest one. Double precision tells seconds apart, and microseconds for some
centuries; from then on, dates lie on a coarser grid than times. Not every time has a date: what the
clock shows then, and what it showed a day before, lie in the years from 1 to 9999. -/

namespace KitTemplate.Site

/-- Seconds are counted in this fraction, the last binary digit that a nanosecond has in double
precision. -/
def unitsPerSecond : Nat := Nat.pow 2 82

/-- A nanosecond in double precision. -/
def nanosecond : Nat := Rounding.nearest unitsPerSecond (Nat.pow 10 9)

/-- The seconds from 1970 to an instant in double precision: the sum of its whole seconds and of the
nanoseconds past these, each of them in double precision too. -/
def secondsOf (instant : Instant) : Int :=
  let whole := instant.nanoseconds / 1000000000
  let nanoseconds := (instant.nanoseconds % 1000000000).toNat
  let sum := whole.sign * Rounding.toDouble whole.natAbs * unitsPerSecond +
    Rounding.toDouble (nanoseconds * nanosecond)
  sum.sign * Rounding.toDouble sum.natAbs

/-- The microseconds in some seconds: those in the whole seconds, and those nearest to the
fraction. -/
def microsecondsIn (seconds : Nat) : Nat :=
  let fraction := Rounding.toDouble (seconds % unitsPerSecond * 1000000)
  seconds / unitsPerSecond * 1000000 + Rounding.nearest fraction unitsPerSecond

/-- The microseconds from 1970 to an instant, as a date has them. -/
def microsecondsOf (instant : Instant) : Int :=
  let seconds := secondsOf instant
  seconds.sign * microsecondsIn seconds.natAbs

def secondsPerDay : Nat := 86400

/-- The days of four centuries, after which the calendar repeats itself. -/
def daysPerCycle : Nat := 146097

/-- The days from the first of March of the year 0 to the beginning of 1970. -/
def daysToEpoch : Nat := 719468

/-- The year in which a second counted from 1970 lies. Years are first counted from the first of
March, so that a leap day is the last day of its year. -/
def yearOf (second : Int) : Int :=
  let days := second / secondsPerDay + daysToEpoch
  let day := days % daysPerCycle
  let year := (day - day / 1460 + day / 36524 - day / 146096) / 365
  let dayOfYear := day - (365 * year + year / 4 - year / 100)
  days / daysPerCycle * 400 + year + (if 306 ≤ dayOfYear then 1 else 0)

example : yearOf 0 = 1970 ∧ yearOf (-1) = 1969 ∧ yearOf 951782400 = 2000 := by decide

example : yearOf 253402300799 = 9999 ∧ yearOf 253402300800 = 10000 ∧
    yearOf (-62135596800) = 1 ∧ yearOf (-62135596801) = 0 := by decide

/-- Why a time is that of no date. -/
inductive DateProblem where
  | outsideYears (year : Int)
  | outsideCalendar
deriving DecidableEq, Repr

def DateProblem.message : DateProblem → Text
  | outsideYears year => "year ".toList ++ Text.ofInt year ++ " is out of range".toList
  | outsideCalendar => "[Errno 75] Value too large for defined data type".toList

/-- A year that a date may lie in. The calendar counts years from 1900 in words of 32 bits, so a
year close to the end of those is taken for one long before. -/
def checkYear (year : Int) : Except DateProblem Unit :=
  let counted := year - 1900
  let year := year.bmod (Nat.pow 2 32)
  if counted < -Int.pow 2 31 ∨ Int.pow 2 31 ≤ counted then .error .outsideCalendar
  else if 1 ≤ year ∧ year ≤ 9999 then .ok ()
  else .error (.outsideYears year)

/-- The second in which a local clock is read for the date of an instant. -/
def secondOf (instant : Instant) : Int := microsecondsOf instant / 1000000

/-- The date of a file changed at an instant, in microseconds as the local clock counts them. To
tell whether the clock shows the time of that second twice, it is read for the day before as well
and, if it was set back since, also for the second at which it first showed that time. -/
def date (zone : Zone) (instant : Instant) : Except DateProblem Int := do
  let second := secondOf instant
  checkYear (yearOf (zone.shown second))
  checkYear (yearOf (zone.shown (second - secondsPerDay)))
  let gained := zone.ahead second - zone.ahead (second - secondsPerDay)
  if gained < 0 then checkYear (yearOf (zone.shown (second + gained)))
  return microsecondsOf instant + zone.ahead second * 1000000

end KitTemplate.Site
