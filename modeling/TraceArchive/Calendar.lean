/-!
# The Gregorian calendar

Days are counted from 1970-01-01; the calendar is proleptic and has a year zero.

* `Date.toDay`, `Date.ofDay`: the two directions between dates and day counts.
* `daysBeforeYear_succ`: a year has 365 days, or 366 when it is a leap year.
-/

set_option autoImplicit false

namespace TraceArchive

/-- A calendar date; months and days count from one. -/
structure Date where
  year : Int
  month : Nat
  day : Nat
  deriving DecidableEq, Repr, Inhabited

namespace Calendar

/-- Every fourth year is a leap year, but of the full centuries only every fourth. -/
def isLeap (year : Int) : Bool :=
  year % 4 == 0 && (year % 100 != 0 || year % 400 == 0)

/-- The number of days of a year. -/
def yearLength (year : Int) : Nat :=
  if isLeap year then 366 else 365

/-- The number of days of a month. -/
def monthLength (year : Int) (month : Nat) : Nat :=
  if month = 2 then if isLeap year then 29 else 28
  else if month = 4 ∨ month = 6 ∨ month = 9 ∨ month = 11 then 30
  else 31

/-- The numbers of days of the months of a year. -/
def monthLengths (year : Int) : List Nat :=
  (List.range' 1 12).map (monthLength year)

/-- The number of days from 0001-01-01 to the first day of a year. -/
def daysBeforeYear (year : Int) : Int :=
  (year - 1) * 365 + (year - 1) / 4 - (year - 1) / 100 + (year - 1) / 400

/-- The number of days of a year before a month. -/
def daysBeforeMonth (year : Int) (month : Nat) : Nat :=
  ((monthLengths year).take (month - 1)).foldl (· + ·) 0

/-- The year of the day that lies `days` after 0001-01-01. -/
def yearOf (days : Int) : Int :=
  let guess := 400 * days / 146097 + 1
  if days < daysBeforeYear guess then guess - 1
  else if daysBeforeYear (guess + 1) ≤ days then guess + 1
  else guess

/-- The month and the day of the month that a day falls on, counted from the first of `month`. -/
def monthAndDay (month : Nat) (day : Nat) : List Nat → Nat × Nat
  | [] => (month, day)
  | length :: rest =>
      if day ≤ length then (month, day) else monthAndDay (month + 1) (day - length) rest

/-- The days from 0001-01-01 to 1970-01-01. -/
def epoch : Int := 719162

/-- A year has 365 days, or 366 when it is a leap year. -/
theorem daysBeforeYear_succ (year : Int) :
    daysBeforeYear (year + 1) = daysBeforeYear year + yearLength year := by
  simp only [daysBeforeYear, yearLength, isLeap]
  by_cases h4 : year % 4 = 0 <;> by_cases h100 : year % 100 = 0 <;>
    by_cases h400 : year % 400 = 0 <;> simp [h4, h100, h400] <;> omega

theorem yearLength_pos (year : Int) : 0 < yearLength year := by
  unfold yearLength
  split <;> omega

theorem monthLength_pos
    (year : Int)
    (month : Nat) :
    0 < monthLength year month := by
  unfold monthLength
  repeat' split
  all_goals omega

end Calendar

namespace Date

open Calendar

/-- The number of days from 1970-01-01 to a date. -/
def toDay (date : Date) : Int :=
  daysBeforeYear date.year + daysBeforeMonth date.year date.month + date.day - 1 - epoch

/-- The date that lies a number of days after 1970-01-01. -/
def ofDay (day : Int) : Date :=
  let days := day + epoch
  let year := yearOf days
  let place := monthAndDay 1 ((days - daysBeforeYear year).toNat + 1) (monthLengths year)
  ⟨year, place.1, place.2⟩

end Date
end TraceArchive
