import TraceArchive.Proofs.Instants
import TraceArchive.Proofs.ShortestCover

/-!
# Ranges that reach the end of the calendar

After each block of a range the walk asks for the day that follows, and no day follows the last one of
the calendar.  Which block comes last tells how that fails: a block never leaves its year, so a walk
that starts on the first day of the last year, or before it, comes to this day and takes the whole
year, and any other walk ends with a month or a day.

* `Partition.largestBlock_end_le_newYear`: a block lies within one year.
* `Partition.blocksFrom_lastDay`: the error of a range that reaches the last day.
* `Naming.ofRange_fails_iff`: the ranges that have no entries, and why.
-/

set_option autoImplicit false

namespace TraceArchive

open Calendar

namespace Calendar

/-- The first day of the last year that has dates, 9999-01-01. -/
def lastNewYear : Int := Date.toDay ⟨9999, 1, 1⟩

theorem daysBeforeYear_lastNewYear : daysBeforeYear 9999 = lastNewYear + epoch := by decide

theorem daysBeforeYear_afterLast : daysBeforeYear 10000 = lastDay + 1 + epoch := by decide

theorem ofDay_eq_lastDate_iff {day : Int} : Date.ofDay day = ⟨9999, 12, 31⟩ ↔ day = lastDay := by
  refine ⟨fun h => ?_, fun h => h ▸ by decide⟩
  rw [← Date.toDay_ofDay day, h]
  decide

end Calendar

namespace Partition

variable {day : Int} (last : Int)

/-- The block that is taken at a day ends within the year of the day. -/
theorem largestBlock_end_le_newYear
    (hfirst : firstDay ≤ day)
    (hlast : day ≤ lastDay) :
    day + (largestBlock day last).2.1 + epoch ≤ daysBeforeYear ((Date.ofDay day).year + 1) := by
  have hblock : (largestBlock day last).1.InCalendar := inCalendar_largestBlock hfirst hlast
  have hpos := largestBlock_length_pos day last
  have hholds : ∀ other, day ≤ other → other < day + (largestBlock day last).2.1 →
      (Date.ofDay other).year = (largestBlock day last).1.inYear := by
    intro other hle hlt
    refine Block.year_of_holds ((Block.holds_ofDay_iff hblock other).mpr ?_)
    rw [start_largestBlock, length_largestBlock]
    exact ⟨hle, hlt⟩
  have hend := (Date.isValid_ofDay (day + (largestBlock day last).2.1 - 1)).toDay_spec.2
  rw [Date.toDay_ofDay, hholds _ (by omega) (by omega), ← hholds day (by omega) (by omega)] at hend
  omega

/-- A block that starts before the first day of the last year ends before it. -/
theorem largestBlock_end_le_lastNewYear
    (hfirst : firstDay ≤ day)
    (hbefore : day < lastNewYear) :
    day + (largestBlock day last).2.1 ≤ lastNewYear := by
  have hlast : lastNewYear ≤ lastDay := by decide
  have hend := largestBlock_end_le_newYear last hfirst (by omega)
  have hstart := (Date.isValid_ofDay day).toDay_spec.1
  rw [Date.toDay_ofDay] at hstart
  have hnewYear := daysBeforeYear_lastNewYear
  have hyear : (Date.ofDay day).year + 1 ≤ 9999 := by
    by_contra hlate
    have hmono := daysBeforeYear_mono (show 9999 ≤ (Date.ofDay day).year by omega)
    omega
  have hmono := daysBeforeYear_mono hyear
  omega

theorem largestBlock_lastNewYear :
    largestBlock lastNewYear lastDay = (.year 9999, 365, .yearOutOfRange 10000) := by
  decide

/-- After the first day of the last year no year starts, and where a day or a month is taken what
fails is the step by a number of days. -/
theorem error_largestBlock_of_lt
    (hafter : lastNewYear < day)
    (hlast : day ≤ lastDay) :
    (largestBlock day last).2.2 = .overflow := by
  have hnewYear : ¬ ((Date.ofDay day).day = 1 ∧ (Date.ofDay day).month = 1) := by
    rintro ⟨hday, hmonth⟩
    have hdate : Date.toDay ⟨(Date.ofDay day).year, 1, 1⟩ = day := by
      conv_rhs => rw [← Date.toDay_ofDay day]
      rw [Date.toDay, Date.toDay, hday, hmonth]
    have hstart := Block.toDay_newYear (Date.ofDay day).year
    have hbefore := daysBeforeYear_lastNewYear
    have hbeyond := daysBeforeYear_afterLast
    rcases Int.lt_or_le (Date.ofDay day).year 10000 with hyear | hyear
    · have hmono := daysBeforeYear_mono (show (Date.ofDay day).year ≤ 9999 by omega)
      omega
    · have hmono := daysBeforeYear_mono hyear
      omega
  rw [largestBlock, if_neg (fun h => hnewYear ⟨h.1, h.2.1⟩)]
  split <;> rfl

/-- A range that reaches the last day of the calendar has no blocks.  The year after the last one is
missing when the walk comes to the first day of the last year, else the day after the last one. -/
theorem blocksFrom_lastDay
    {day : Int}
    (hfirst : firstDay ≤ day)
    (hlast : day ≤ lastDay) :
    blocksFrom day lastDay =
      .error (if day ≤ lastNewYear then .yearOutOfRange 10000 else .overflow) := by
  have hpos := largestBlock_length_pos day lastDay
  rw [blocksFrom, if_pos hlast]
  dsimp only
  rcases Int.lt_trichotomy day lastNewYear with hbefore | hsame | hafter
  · -- the walk goes on with a day that is not later than the first one of the last year
    have hend := largestBlock_end_le_lastNewYear lastDay hfirst hbefore
    have hcalendar : lastNewYear ≤ lastDay := by decide
    rw [if_neg (by omega), blocksFrom_lastDay (by omega) (by omega), if_pos hend,
      if_pos (Int.le_of_lt hbefore)]
    rfl
  · subst hsame
    rw [largestBlock_lastNewYear]
    decide
  · rw [error_largestBlock_of_lt lastDay hafter hlast, if_neg (Int.not_le_of_gt hafter)]
    split
    · rfl
    · rw [blocksFrom_lastDay (by omega) (by omega), if_neg (by omega)]
      rfl
termination_by (lastDay + 1 - day).toNat

end Partition

namespace Naming

variable (naming : Naming) (docType : String) (begin last : Int)

/-- A range of instants goes forwards and ends on 9999-12-31. -/
def ReachesLastDay (begin last : Int) : Prop :=
  begin / 86400000 ≤ last / 86400000 ∧ Date.ofDay (last / 86400000) = ⟨9999, 12, 31⟩

instance : Decidable (ReachesLastDay begin last) :=
  inferInstanceAs (Decidable (_ ∧ _))

variable {begin last}

/-- A range of which one instant has no date has no entries. -/
theorem exists_ofRange_eq_error
    (h : ¬ HasDate begin ∨ ¬ HasDate last) :
    ∃ error, naming.ofRange docType begin last = .error error := by
  simp only [ofRange, ofInstants, Millis.day]
  cases hbegin : dayOfMillis begin with
  | error error => exact ⟨error, rfl⟩
  | ok day =>
      cases hlast : dayOfMillis last with
      | error error => exact ⟨error, rfl⟩
      | ok final =>
          rw [← exists_dayOfMillis_eq_error_iff, ← exists_dayOfMillis_eq_error_iff, hbegin,
            hlast] at h
          rcases h with ⟨_, h⟩ | ⟨_, h⟩ <;> cases h

/-- A range that ends before the last day of the calendar, or backwards, has entries. -/
theorem exists_ofRange_eq_ok
    (hbegin : HasDate begin)
    (hlast : HasDate last)
    (hinside : ¬ ReachesLastDay begin last) :
    ∃ entries, naming.ofRange docType begin last = .ok entries := by
  obtain ⟨hfirst, -⟩ := hasDate_iff.mp hbegin
  obtain ⟨-, hfinal⟩ := hasDate_iff.mp hlast
  rw [ReachesLastDay, ofDay_eq_lastDate_iff] at hinside
  rw [ofRange_of_hasDate naming docType hbegin hlast]
  by_cases hle : begin / 86400000 ≤ last / 86400000
  · obtain ⟨blocks, hblocks, -⟩ := Partition.blocksFrom_spec (begin / 86400000) (last / 86400000)
      hfirst (by omega)
    exact ⟨_, by rw [hblocks]; rfl⟩
  · rw [Partition.blocksFrom, if_neg hle]
    exact ⟨_, rfl⟩

/-- The error of a range that reaches the last day of the calendar. -/
theorem ofRange_of_reachesLastDay
    (hbegin : HasDate begin)
    (hend : ReachesLastDay begin last) :
    naming.ofRange docType begin last =
      .error (if begin / 86400000 ≤ lastNewYear then .yearOutOfRange 10000 else .overflow) := by
  obtain ⟨hle, hdate⟩ := hend
  have hlast : HasDate last := by
    rw [HasDate, hdate]
    decide
  rw [ofDay_eq_lastDate_iff] at hdate
  rw [ofRange_of_hasDate naming docType hbegin hlast, hdate,
    Partition.blocksFrom_lastDay (hasDate_iff.mp hbegin).1 (hdate ▸ hle)]
  rfl

/-- **The ranges that have no entries.**  A range fails just when one of its instants has no date in
the years 1 to 9999 or when it reaches 9999-12-31.  In the second case the year 10000 is named as
missing when the range starts on 9999-01-01 or before, and otherwise the error is an overflow.  Every
other range has entries. -/
theorem ofRange_fails_iff :
    ((∃ error, naming.ofRange docType begin last = .error error) ↔
      ¬ HasDate begin ∨ ¬ HasDate last ∨ ReachesLastDay begin last) ∧
    (HasDate begin → ReachesLastDay begin last →
      (naming.ofRange docType begin last = .error (.yearOutOfRange 10000) ↔
        begin / 86400000 ≤ Date.toDay ⟨9999, 1, 1⟩) ∧
      (naming.ofRange docType begin last = .error .overflow ↔
        ¬ begin / 86400000 ≤ Date.toDay ⟨9999, 1, 1⟩)) ∧
    (DateError.yearOutOfRange 10000).message? = some "year 10000 is out of range" ∧
    (HasDate begin → HasDate last → ¬ ReachesLastDay begin last →
      ∃ entries, naming.ofRange docType begin last = .ok entries) := by
  refine ⟨⟨fun hfails => ?_, fun h => ?_⟩, fun hbegin hend => ?_, by cbv,
    exists_ofRange_eq_ok naming docType⟩
  · by_contra hnot
    simp only [not_or, not_not] at hnot
    obtain ⟨entries, hentries⟩ := exists_ofRange_eq_ok naming docType hnot.1 hnot.2.1 hnot.2.2
    obtain ⟨error, herror⟩ := hfails
    cases hentries.symm.trans herror
  · by_cases hbegin : HasDate begin
    · rcases h with hnone | hnone | hend
      · exact absurd hbegin hnone
      · exact exists_ofRange_eq_error naming docType (Or.inr hnone)
      · exact ⟨_, ofRange_of_reachesLastDay naming docType hbegin hend⟩
    · exact exists_ofRange_eq_error naming docType (Or.inl hbegin)
  · rw [ofRange_of_reachesLastDay naming docType hbegin hend]
    show (_ ↔ begin / 86400000 ≤ lastNewYear) ∧ (_ ↔ ¬ begin / 86400000 ≤ lastNewYear)
    split <;> simp [*]

/-- Up to the last day of the calendar, from the second and from the first day of its last year; and
up to the day before. -/
theorem ofRange_fails_lastYear :
    Naming.ofRange ⟨"zipkin", "-"⟩ "span" 253370851200000 253402300799999 = .error .overflow ∧
      Naming.ofRange ⟨"zipkin", "-"⟩ "span" 253370764800000 253402300799999 =
        .error (.yearOutOfRange 10000) ∧
      ∃ entries, Naming.ofRange ⟨"zipkin", "-"⟩ "span" 253370764800000 253402214399999 =
        .ok entries := by
  refine ⟨?_, ?_, ?_⟩
  · exact ((ofRange_fails_iff ⟨"zipkin", "-"⟩ "span").2.1 (by decide) (by decide)).2.mpr (by decide)
  · exact ((ofRange_fails_iff ⟨"zipkin", "-"⟩ "span").2.1 (by decide) (by decide)).1.mpr (by decide)
  · exact (ofRange_fails_iff ⟨"zipkin", "-"⟩ "span").2.2.2 (by decide) (by decide) (by decide)

end Naming
end TraceArchive
