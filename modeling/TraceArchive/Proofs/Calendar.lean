import Mathlib.Algebra.GroupWithZero.Nat
import TraceArchive.Calendar.Instant

/-!
# Laws of the calendar

Counting days and naming them by dates are inverse to each other.

* `yearOf_spec`, `yearOf_eq`: the year of a day is the one whose days enclose it.
* `Date.toDay_ofDay`, `Date.ofDay_toDay`: the two directions between dates and day counts.
* `dayOfSeconds_eq_ok_iff`, `dayOfMillis_eq`: the day of an instant within the years 1 to 9999.
* `HasDate`: the date of an instant lies in these years.
-/

set_option autoImplicit false

namespace TraceArchive

namespace Calendar

/-- The first day that has a date, 0001-01-01. -/
def firstDay : Int := -719162

/-! ### Years -/

theorem daysBeforeYear_mono {a b : Int} (h : a ≤ b) : daysBeforeYear a ≤ daysBeforeYear b := by
  simp only [daysBeforeYear]
  omega

/-- The first guess at the year of a day is never too late, and too early by at most one. -/
theorem guess_spec (days : Int) :
    daysBeforeYear (400 * days / 146097 + 1) ≤ days ∧
      days < daysBeforeYear (400 * days / 146097 + 1 + 1 + 1) := by
  simp only [daysBeforeYear]
  omega

/-- A day lies within its year. -/
theorem yearOf_spec (days : Int) :
    daysBeforeYear (yearOf days) ≤ days ∧ days < daysBeforeYear (yearOf days + 1) := by
  obtain ⟨hearly, hlate⟩ := guess_spec days
  by_cases hnext : daysBeforeYear (400 * days / 146097 + 1 + 1) ≤ days
  · rw [yearOf, if_neg (by omega), if_pos hnext]
    exact ⟨hnext, hlate⟩
  · rw [yearOf, if_neg (by omega), if_neg hnext]
    exact ⟨hearly, by omega⟩

/-- The year of a day is the one whose days enclose it. -/
theorem yearOf_eq
    {days year : Int}
    (hle : daysBeforeYear year ≤ days)
    (hlt : days < daysBeforeYear (year + 1)) :
    yearOf days = year := by
  obtain ⟨hle', hlt'⟩ := yearOf_spec days
  have hbelow : ¬ yearOf days + 1 ≤ year := fun h => by
    have := daysBeforeYear_mono h
    omega
  have habove : ¬ year + 1 ≤ yearOf days := fun h => by
    have := daysBeforeYear_mono h
    omega
  omega

/-! ### Months -/

/-- What counting through months finds: the day lies within the month that is found. -/
theorem monthAndDay_spec
    (month day : Nat)
    (lengths : List Nat)
    (hpos : 0 < day)
    (hle : day ≤ lengths.sum) :
    ∃ passed, ∃ h : passed < lengths.length,
      (monthAndDay month day lengths).1 = month + passed ∧
      0 < (monthAndDay month day lengths).2 ∧
      (monthAndDay month day lengths).2 ≤ lengths[passed] ∧
      (lengths.take passed).sum + (monthAndDay month day lengths).2 = day := by
  induction lengths generalizing month day with
  | nil => simp at hle; omega
  | cons length rest ih =>
      by_cases hday : day ≤ length
      · refine ⟨0, by simp, ?_⟩
        simp [monthAndDay, hday, hpos]
      · have hrest : day - length ≤ rest.sum := by
          simp only [List.sum_cons] at hle
          omega
        obtain ⟨passed, hlt, hmonth, hpos', hlength, hsum⟩ := ih (month + 1) _ (by omega) hrest
        refine ⟨passed + 1, by simpa using hlt, ?_⟩
        simp only [monthAndDay, hday, if_false, List.getElem_cons_succ, List.take_succ_cons,
          List.sum_cons]
        exact ⟨by omega, hpos', hlength, by omega⟩

/-- Counting through months comes to the month that a day was counted from. -/
theorem monthAndDay_eq
    (month : Nat) {day passed : Nat} {lengths : List Nat}
    (h : passed < lengths.length)
    (hpos : 0 < day)
    (hle : day ≤ lengths[passed]) :
    monthAndDay month ((lengths.take passed).sum + day) lengths = (month + passed, day) := by
  induction passed generalizing month lengths with
  | zero =>
      cases lengths with
      | nil => simp at h
      | cons length rest =>
          have hday : day ≤ length := by simpa using hle
          simp [monthAndDay, hday]
  | succ passed ih =>
      cases lengths with
      | nil => simp at h
      | cons length rest =>
          have hrest := ih (month + 1) (by simpa using h) (by simpa using hle)
          have hfar : ¬ length + (rest.take passed).sum + day ≤ length := by omega
          have hleft : length + (rest.take passed).sum + day - length =
              (rest.take passed).sum + day := by omega
          simp only [List.take_succ_cons, List.sum_cons, monthAndDay, hfar, if_false, hleft, hrest]
          congr 1
          omega

theorem length_monthLengths (year : Int) : (monthLengths year).length = 12 := by
  simp [monthLengths]

theorem getElem_monthLengths
    (year : Int) {passed : Nat}
    (h : passed < (monthLengths year).length) :
    (monthLengths year)[passed] = monthLength year (passed + 1) := by
  simp [monthLengths, Nat.add_comm]

theorem sum_monthLengths (year : Int) : (monthLengths year).sum = yearLength year := by
  cases h : isLeap year <;> simp [monthLengths, yearLength, monthLength, h, List.range']

theorem daysBeforeMonth_eq_sum (year : Int) (month : Nat) :
    daysBeforeMonth year month = ((monthLengths year).take (month - 1)).sum := by
  rw [daysBeforeMonth, List.sum_eq_foldl]

theorem daysBeforeMonth_add_le
    (year : Int) {month : Nat}
    (hpos : 0 < month)
    (hle : month ≤ 12) :
    daysBeforeMonth year month + monthLength year month ≤ yearLength year := by
  have hlt : month - 1 < (monthLengths year).length := by
    rw [length_monthLengths]
    omega
  have hlast : (monthLengths year)[month - 1] = monthLength year month := by
    rw [getElem_monthLengths, Nat.sub_add_cancel hpos]
  have hsum : ((monthLengths year).take (month - 1)).sum +
      ((monthLengths year)[month - 1] + ((monthLengths year).drop (month - 1 + 1)).sum) =
        (monthLengths year).sum := by
    rw [← List.sum_cons, ← List.drop_eq_getElem_cons hlt, ← List.sum_append_nat,
      List.take_append_drop]
  rw [daysBeforeMonth_eq_sum, ← hlast, ← sum_monthLengths]
  omega

end Calendar

namespace Date

open Calendar

/-- The month and the day of a date exist. -/
structure IsValid (date : Date) : Prop where
  month_pos : 0 < date.month
  month_le : date.month ≤ 12
  day_pos : 0 < date.day
  day_le : date.day ≤ monthLength date.year date.month

/-- A date that exists, in one of the years 1 to 9999. -/
structure InCalendar (date : Date) : Prop extends IsValid date where
  year_pos : 1 ≤ date.year
  year_le : date.year ≤ 9999

instance (date : Date) : Decidable date.InCalendar :=
  decidable_of_iff
    ((0 < date.month ∧ date.month ≤ 12 ∧ 0 < date.day ∧
      date.day ≤ monthLength date.year date.month) ∧ 1 ≤ date.year ∧ date.year ≤ 9999)
    ⟨fun ⟨⟨h₁, h₂, h₃, h₄⟩, h₅, h₆⟩ => ⟨⟨h₁, h₂, h₃, h₄⟩, h₅, h₆⟩,
      fun ⟨⟨h₁, h₂, h₃, h₄⟩, h₅, h₆⟩ => ⟨⟨h₁, h₂, h₃, h₄⟩, h₅, h₆⟩⟩

/-- A date lies within its year. -/
theorem IsValid.toDay_spec {date : Date} (valid : date.IsValid) :
    daysBeforeYear date.year ≤ date.toDay + epoch ∧
      date.toDay + epoch < daysBeforeYear (date.year + 1) := by
  have hmonth := daysBeforeMonth_add_le date.year valid.month_pos valid.month_le
  have hday := valid.day_le
  have hpos := valid.day_pos
  rw [daysBeforeYear_succ, toDay]
  omega

/-- The date of a day count exists, and counting its days gives the count back. -/
theorem ofDay_spec (day : Int) : (ofDay day).IsValid ∧ (ofDay day).toDay = day := by
  obtain ⟨hle, hlt⟩ := yearOf_spec (day + epoch)
  rw [daysBeforeYear_succ] at hlt
  obtain ⟨passed, hpassed, hmonth, hpos, hlength, hsum⟩ :=
    monthAndDay_spec 1 ((day + epoch - daysBeforeYear (yearOf (day + epoch))).toNat + 1)
      (monthLengths (yearOf (day + epoch))) (by omega) (by rw [sum_monthLengths]; omega)
  have hmonth' : (ofDay day).month = 1 + passed := hmonth
  have hday : (ofDay day).day ≤ monthLength (ofDay day).year (ofDay day).month := by
    rw [hmonth', Nat.add_comm]
    exact (getElem_monthLengths _ hpassed) ▸ hlength
  have hpassed' : passed < 12 := length_monthLengths _ ▸ hpassed
  refine ⟨⟨by omega, by omega, hpos, hday⟩, ?_⟩
  rw [toDay, daysBeforeMonth_eq_sum, hmonth', Nat.add_sub_cancel_left]
  simp only [ofDay] at hsum ⊢
  omega

theorem isValid_ofDay (day : Int) : (ofDay day).IsValid :=
  (ofDay_spec day).1

@[simp] theorem toDay_ofDay (day : Int) : (ofDay day).toDay = day :=
  (ofDay_spec day).2

/-- Naming the day count of a date gives the date back. -/
theorem ofDay_toDay {date : Date} (valid : date.IsValid) : ofDay date.toDay = date := by
  obtain ⟨hle, hlt⟩ := valid.toDay_spec
  have hyear := yearOf_eq hle hlt
  have hmonth : date.month - 1 < (monthLengths date.year).length := by
    have := valid.month_pos
    have := valid.month_le
    rw [length_monthLengths]
    omega
  have hday : date.day ≤ (monthLengths date.year)[date.month - 1] := by
    rw [getElem_monthLengths, Nat.sub_add_cancel valid.month_pos]
    exact valid.day_le
  have hcount : (date.toDay + epoch - daysBeforeYear date.year).toNat + 1 =
      ((monthLengths date.year).take (date.month - 1)).sum + date.day := by
    have := valid.day_pos
    rw [toDay, daysBeforeMonth_eq_sum]
    omega
  simp only [ofDay, hyear, hcount, monthAndDay_eq 1 hmonth valid.day_pos hday,
    Nat.add_sub_cancel' valid.month_pos]

/-- Dates that exist are told apart by their day counts. -/
theorem toDay_inj {a b : Date} (ha : a.IsValid) (hb : b.IsValid) : a.toDay = b.toDay ↔ a = b := by
  refine ⟨fun h => ?_, fun h => h ▸ rfl⟩
  rw [← ofDay_toDay ha, h, ofDay_toDay hb]

/-- A date lies in a year exactly when its day count lies within the days of the year. -/
theorem year_eq_iff
    {date : Date}
    (valid : date.IsValid)
    (year : Int) :
    date.year = year ↔
      daysBeforeYear year ≤ date.toDay + epoch ∧
        date.toDay + epoch < daysBeforeYear (year + 1) := by
  constructor
  · rintro rfl
    exact valid.toDay_spec
  · rintro ⟨hle, hlt⟩
    rw [← yearOf_eq valid.toDay_spec.1 valid.toDay_spec.2, yearOf_eq hle hlt]

/-- A date lies in a month exactly when its day count lies within the days of the month. -/
theorem month_eq_iff
    {date : Date}
    (valid : date.IsValid)
    {year : Int} {month : Nat}
    (hpos : 0 < month)
    (hle : month ≤ 12) :
    date.year = year ∧ date.month = month ↔
      toDay ⟨year, month, 1⟩ ≤ date.toDay ∧
        date.toDay < toDay ⟨year, month, 1⟩ + monthLength year month := by
  constructor
  · rintro ⟨rfl, rfl⟩
    have := valid.day_pos
    have := valid.day_le
    simp only [toDay]
    omega
  · rintro ⟨hge, hlt⟩
    -- the date with that day of the month has the same day count
    obtain ⟨passed, hpassed⟩ := Int.eq_ofNat_of_zero_le (Int.sub_nonneg.mpr hge)
    have hvalid : IsValid ⟨year, month, passed + 1⟩ :=
      ⟨hpos, hle, Nat.succ_pos passed, by simp only; omega⟩
    have hday : date.toDay = toDay ⟨year, month, passed + 1⟩ := by
      simp only [toDay] at hpassed ⊢
      omega
    rw [(toDay_inj valid hvalid).mp hday]
    exact ⟨rfl, rfl⟩

end Date

namespace Calendar

/-- The days that have a date are those of the years 1 to 9999. -/
theorem year_ofDay_iff (day : Int) :
    firstDay ≤ day ∧ day ≤ lastDay ↔ 1 ≤ (Date.ofDay day).year ∧ (Date.ofDay day).year ≤ 9999 := by
  have hspec := (Date.isValid_ofDay day).toDay_spec
  rw [Date.toDay_ofDay] at hspec
  simp only [daysBeforeYear, epoch] at hspec
  simp only [firstDay, lastDay]
  omega

theorem inCalendar_ofDay
    {day : Int}
    (hfirst : firstDay ≤ day)
    (hlast : day ≤ lastDay) :
    (Date.ofDay day).InCalendar := by
  obtain ⟨hpos, hle⟩ := (year_ofDay_iff day).mp ⟨hfirst, hlast⟩
  exact ⟨Date.isValid_ofDay day, hpos, hle⟩

/-- Whole seconds have a day just when their day lies in the years 1 to 9999. -/
theorem dayOfSeconds_eq_ok_iff {seconds : Option Int} {day : Int} :
    dayOfSeconds seconds = .ok day ↔
      ∃ whole, seconds = some whole ∧ day = whole / 86400 ∧ firstDay ≤ day ∧ day ≤ lastDay := by
  cases seconds with
  | none => simp [dayOfSeconds]
  | some seconds =>
      have hyear := year_ofDay_iff (seconds / 86400)
      rw [dayOfSeconds, Int.fdiv_eq_ediv_of_nonneg _ (by decide)]
      dsimp only
      constructor
      · intro h
        split at h
        · cases h
        · split at h
          · cases h
          · split at h
            · cases h
            · cases h
              exact ⟨seconds, rfl, rfl, hyear.mpr (by omega)⟩
      · rintro ⟨_, ⟨⟩, rfl, hrange⟩
        obtain ⟨hone, hmost⟩ := hyear.mp hrange
        have hwrap : ¬ wrap32 ((Date.ofDay (seconds / 86400)).year - 1900) ≠
            (Date.ofDay (seconds / 86400)).year - 1900 := by
          simp only [wrap32, Int.bmod]
          omega
        have hseconds : ¬ (seconds < -secondsLimit ∨ secondsLimit < seconds) := by
          simp only [firstDay, lastDay, secondsLimit] at *
          omega
        rw [if_neg hseconds, if_neg hwrap, if_neg (by omega)]

/-- The day of an instant, within the years 1 to 9999. -/
theorem dayOfMillis_eq
    {millis : Int}
    (hfirst : firstDay ≤ millis / 86400000)
    (hlast : millis / 86400000 ≤ lastDay) :
    dayOfMillis millis = .ok (millis / 86400000) := by
  have hexact : millis.natAbs ≤ Double.significandLimit := by
    simp only [firstDay, lastDay, Double.significandLimit] at *
    omega
  refine dayOfSeconds_eq_ok_iff.mpr ⟨millis / 1000, ?_, by omega, hfirst, hlast⟩
  rw [wholeSeconds?, if_pos hexact, Int.fdiv_eq_ediv_of_nonneg _ (by decide)]

/-- The date of an instant lies in the years 1 to 9999. -/
def HasDate (millis : Int) : Prop :=
  1 ≤ (Date.ofDay (millis / 86400000)).year ∧ (Date.ofDay (millis / 86400000)).year ≤ 9999

instance (millis : Int) : Decidable (HasDate millis) :=
  inferInstanceAs (Decidable (_ ∧ _))

theorem hasDate_iff {millis : Int} :
    HasDate millis ↔ firstDay ≤ millis / 86400000 ∧ millis / 86400000 ≤ lastDay :=
  (year_ofDay_iff _).symm

theorem HasDate.dayOfMillis_eq_ok {millis : Int} (h : HasDate millis) :
    dayOfMillis millis = .ok (millis / 86400000) :=
  dayOfMillis_eq (hasDate_iff.mp h).1 (hasDate_iff.mp h).2

end Calendar
end TraceArchive
