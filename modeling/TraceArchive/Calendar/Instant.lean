import TraceArchive.Calendar
import TraceArchive.Decimal.Double

/-!
# The day of an instant

Instants are counted in milliseconds from 1970-01-01 in universal time.  Only the years 1 to 9999
have dates.  Up to `2 ^ 53` milliseconds the whole seconds of an instant are exact; farther out
they are those of the nearest double, so that the year that is reported is the one of that
instant.  An instant may also be a double, which has seconds in microseconds.

* `Calendar.dayOfMillis`, `Millis.day`: the day of an instant.
* `Millis.before`: the instant that lies a number of milliseconds before another.
-/

set_option autoImplicit false

namespace TraceArchive

/-- Why an instant or a day has no date. -/
inductive DateError where
  | yearOutOfRange (year : Int)
  | yearTooLarge
  | overflow
  deriving DecidableEq, Repr

/-- The wording of an error, where it has one. -/
def DateError.message? : DateError → Option String
  | .yearOutOfRange year => some ("year " ++ toString year ++ " is out of range")
  | .yearTooLarge => none
  | .overflow => none

namespace Calendar

/-- The last day that has a date, 9999-12-31. -/
def lastDay : Int := 2932896

/-- A number as a signed word of 32 bits. -/
def wrap32 (n : Int) : Int :=
  Int.bmod n 4294967296

/-- Seconds are counted up to two to the power of 63, and as far back. -/
def secondsLimit : Int := 9223372036854775808

/-- The whole seconds of an instant in milliseconds, none when they exceed every double. -/
def wholeSeconds? (millis : Int) : Option Int :=
  if millis.natAbs ≤ Double.significandLimit then some (millis.fdiv 1000)
  else (Double.ofRatio (millis < 0) millis.natAbs 1000).floor?

/-- The day of an instant, from its whole seconds. -/
def dayOfSeconds : Option Int → Except DateError Int
  | none => .error .overflow
  | some seconds =>
      if seconds < -secondsLimit ∨ secondsLimit < seconds then .error .overflow
      else
        let day := seconds.fdiv 86400
        let year := (Date.ofDay day).year
        if wrap32 (year - 1900) ≠ year - 1900 then .error .yearTooLarge
        else if year < 1 ∨ 9999 < year then .error (.yearOutOfRange (wrap32 year))
        else .ok day

/-- The day of an instant in milliseconds. -/
def dayOfMillis (millis : Int) : Except DateError Int :=
  dayOfSeconds (wholeSeconds? millis)

/-- The whole seconds of an instant in milliseconds that is a double, none when it is infinite.  Its
seconds are the nearest double, and the fraction of those is rounded to microseconds. -/
def roundedSeconds? (millis : Double) : Option Int := do
  let (num, den) ← millis.quotient?
  let (num, den) ← (Double.ofQuotient num (1000 * den)).quotient?
  let micros ← (Double.ofQuotient (num.tmod den * 1000000) den).round?
  return num.tdiv den + micros.fdiv 1000000

end Calendar

/-- A number of milliseconds: an integer, or a double. -/
inductive Millis where
  | whole (count : Int)
  | real (count : Double)
  deriving DecidableEq, Repr

namespace Millis

/-- The instant that lies a number of milliseconds before another. -/
def before (last : Int) : Millis → Except DateError Millis
  | .whole count => .ok (.whole (last - count))
  | .real count => match (Double.ofInt last).sub? count with
      | some instant => .ok (.real instant)
      | none => .error .overflow

@[simp] theorem before_whole (last count : Int) :
    before last (.whole count) = .ok (.whole (last - count)) := rfl

/-- The day of an instant. -/
def day : Millis → Except DateError Int
  | .whole millis => Calendar.dayOfMillis millis
  | .real millis => Calendar.dayOfSeconds (Calendar.roundedSeconds? millis)

end Millis
end TraceArchive
