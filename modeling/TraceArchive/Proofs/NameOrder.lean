import Mathlib.Algebra.Order.BigOperators.Group.List
import Mathlib.Data.String.Basic
import TraceArchive.Proofs.Partition

/-!
# Names of partitions in the order of their days

The parts of a date stand in the name of a partition from the year to the day, each of them filled up
with zeros to a fixed width.  Names of one document type are therefore compared like their days, with
any mark between the parts and with none.

* `Text.decimal_lt_decimal`: numerals of one width are compared like their numbers.
* `Date.isBefore_of_toDay_lt`: of two dates the one with the smaller day count comes first.
* `Naming.ofDate_lt_ofDate`: the partition of the earlier date has the smaller name.
* `Naming.ofMillis_keepsOrder`: names of partitions are equal, or in order, just when the days are.
-/

set_option autoImplicit false

namespace TraceArchive

/-! ### Numerals of one width -/

namespace Text

/-- What is smaller, among texts of one length, stays smaller whatever follows. -/
theorem append_lt_append
    {first second : List Char}
    (hlength : first.length = second.length)
    (hlt : first < second)
    (x y : List Char) :
    first ++ x < second ++ y := by
  induction first generalizing second with
  | nil =>
      rw [List.length_eq_zero_iff.mp hlength.symm] at hlt
      exact absurd hlt (List.lt_irrefl [])
  | cons c first ih =>
      cases second with
      | nil => simp at hlength
      | cons d second =>
          rw [List.cons_append, List.cons_append, List.cons_lt_cons_iff]
          rcases List.cons_lt_cons_iff.mp hlt with hchar | ⟨hchar, hrest⟩
          · exact Or.inl hchar
          · exact Or.inr ⟨hchar, ih (by simpa using hlength) hrest⟩

theorem ofDigitChars_cons (c : Char) (digits : List Char) :
    Nat.ofDigitChars 10 (c :: digits) 0 =
      10 ^ digits.length * (c.toNat - '0'.toNat) + Nat.ofDigitChars 10 digits 0 := by
  rw [Nat.ofDigitChars_cons, Nat.ofDigitChars_eq_ofDigitChars_zero, Nat.mul_zero, Nat.zero_add]

theorem isDigit_iff {c : Char} : c.isDigit = true ↔ 48 ≤ c.toNat ∧ c.toNat ≤ 57 := by
  simp only [Char.isDigit, Bool.and_eq_true, decide_eq_true_eq, ge_iff_le, UInt32.le_iff_toNat_le]
  rfl

/-- Digits stand for a number below the power of ten of their count. -/
theorem ofDigitChars_lt
    {digits : List Char}
    (h : ∀ c ∈ digits, c.isDigit = true) :
    Nat.ofDigitChars 10 digits 0 < 10 ^ digits.length := by
  induction digits with
  | nil => decide
  | cons c digits ih =>
      obtain ⟨hc, hdigits⟩ := List.forall_mem_cons.mp h
      have hdigit : c.toNat - '0'.toNat ≤ 9 := by
        have := (isDigit_iff.mp hc).2
        show c.toNat - 48 ≤ 9
        omega
      have hmost := Nat.mul_le_mul_left (10 ^ digits.length) hdigit
      have hrest := ih hdigits
      rw [ofDigitChars_cons, List.length_cons, Nat.pow_succ]
      omega

/-- Of as many digits, those that stand for a smaller number are the smaller text. -/
theorem lt_of_ofDigitChars_lt
    {first second : List Char}
    (hfirst : ∀ c ∈ first, c.isDigit = true)
    (hsecond : ∀ c ∈ second, c.isDigit = true)
    (hlength : first.length = second.length)
    (hlt : Nat.ofDigitChars 10 first 0 < Nat.ofDigitChars 10 second 0) :
    first < second := by
  induction first generalizing second with
  | nil =>
      rw [List.length_eq_zero_iff.mp hlength.symm] at hlt
      exact absurd hlt (Nat.lt_irrefl _)
  | cons c first ih =>
      cases second with
      | nil => simp at hlength
      | cons d second =>
          obtain ⟨hc, hfirst⟩ := List.forall_mem_cons.mp hfirst
          obtain ⟨hd, hsecond⟩ := List.forall_mem_cons.mp hsecond
          have hcount : first.length = second.length := by simpa using hlength
          rw [ofDigitChars_cons, ofDigitChars_cons, hcount] at hlt
          rw [List.cons_lt_cons_iff]
          rcases Nat.lt_trichotomy c.toNat d.toNat with hless | hsame | hmore
          · exact Or.inl hless
          · rw [hsame] at hlt
            exact Or.inr ⟨Char.toNat_inj.mp hsame, ih hfirst hsecond hcount (by omega)⟩
          · -- the larger first digit outweighs all that follow
            have hzero := (isDigit_iff.mp hd).1
            have hdigit : d.toNat - '0'.toNat + 1 ≤ c.toNat - '0'.toNat := by
              show d.toNat - 48 + 1 ≤ c.toNat - 48
              omega
            have hleast := Nat.mul_le_mul_left (10 ^ second.length) hdigit
            have hrest := ofDigitChars_lt hsecond
            rw [Nat.mul_add, Nat.mul_one] at hleast
            omega

/-- Numerals of one width are compared like their numbers. -/
theorem decimal_lt_decimal
    {width m n : Nat}
    (hwidth : 0 < width)
    (hlt : m < n)
    (hn : n < 10 ^ width) :
    decimal width m < decimal width n := by
  refine lt_of_ofDigitChars_lt (fun _ => isDigit_of_mem_decimal) (fun _ => isDigit_of_mem_decimal)
    ?_ ?_
  · rw [length_decimal hwidth hn, length_decimal hwidth (Nat.lt_trans hlt hn)]
  · rwa [ofDigitChars_decimal, ofDigitChars_decimal]

end Text

/-! ### Dates in order -/

namespace Calendar

theorem daysBeforeMonth_mono
    (year : Int)
    {m n : Nat}
    (h : m ≤ n) :
    daysBeforeMonth year m ≤ daysBeforeMonth year n := by
  rw [daysBeforeMonth_eq_sum, daysBeforeMonth_eq_sum]
  exact (monthLengths year).monotone_sum_take (Nat.sub_le_sub_right h 1)

theorem monthLength_le (year : Int) (month : Nat) : monthLength year month ≤ 31 := by
  unfold monthLength
  repeat' split
  all_goals omega

end Calendar

namespace Date

open Calendar

/-- A date comes before another one: in an earlier year, or in an earlier month of the year, or on an
earlier day of the month. -/
def IsBefore (a b : Date) : Prop :=
  a.year < b.year ∨
    a.year = b.year ∧ (a.month < b.month ∨ a.month = b.month ∧ a.day < b.day)

/-- Of two dates the one with the smaller day count comes first. -/
theorem isBefore_of_toDay_lt
    {a b : Date}
    (ha : a.IsValid)
    (hb : b.IsValid)
    (hlt : a.toDay < b.toDay) :
    a.IsBefore b := by
  have hyear : a.year ≤ b.year := by
    by_contra hlater
    have hmono := daysBeforeYear_mono (show b.year + 1 ≤ a.year by omega)
    have hastart := ha.toDay_spec.1
    have hbend := hb.toDay_spec.2
    omega
  rcases Int.lt_or_eq_of_le hyear with hearlier | hsame
  · exact Or.inl hearlier
  refine Or.inr ⟨hsame, ?_⟩
  rcases Nat.lt_trichotomy a.month b.month with hearlier | hmonth | hlater
  · exact Or.inl hearlier
  · refine Or.inr ⟨hmonth, ?_⟩
    simp only [toDay, hsame, hmonth] at hlt
    omega
  · -- the first date would lie after the days of the month of the second one
    have hmonths := daysBeforeMonth_mono a.year (Nat.le_of_lt hlater)
    have hapart : ¬ (a.year = a.year ∧ a.month = b.month) := fun h => Nat.ne_of_gt hlater h.2
    have hother := (month_eq_iff ha hb.month_pos hb.month_le).not.mp hapart
    have hbmonth := (month_eq_iff hb hb.month_pos hb.month_le).mp ⟨rfl, rfl⟩
    have hapos := ha.day_pos
    simp only [toDay, ← hsame] at hlt hother hbmonth
    omega

end Date

namespace Naming

open Calendar

variable (naming : Naming) (docType : String)

/-- The partition of the earlier one of two dates has the smaller name. -/
theorem ofDate_lt_ofDate
    {a b : Date}
    (ha : a.InCalendar)
    (hb : b.InCalendar)
    (hbefore : a.IsBefore b) :
    naming.ofDate docType a < naming.ofDate docType b := by
  rw [String.lt_iff_toList_lt, toList_ofDate, toList_ofDate]
  refine List.append_left_lt ?_
  have hpos := ha.year_pos
  have hyears := hb.year_le
  have hmonths := hb.month_le
  rcases hbefore with hyear | ⟨hyear, hmonth | ⟨hmonth, hday⟩⟩
  · refine Text.append_lt_append ?_ (Text.decimal_lt_decimal (by decide) (by omega) (by omega)) _ _
    rw [length_year ha.year_le, length_year hb.year_le]
  · rw [hyear]
    refine List.append_left_lt (List.append_left_lt ?_)
    refine Text.append_lt_append ?_ (Text.decimal_lt_decimal (by decide) hmonth (by omega)) _ _
    rw [length_month ha.month_le, length_month hb.month_le]
  · rw [hyear, hmonth]
    refine List.append_left_lt (List.append_left_lt (List.append_left_lt (List.append_left_lt ?_)))
    have hdays : b.day ≤ 31 := Nat.le_trans hb.day_le (monthLength_le b.year b.month)
    exact Text.decimal_lt_decimal (by decide) hday (by omega)

/-- An instant with a date has a partition, named after that date. -/
theorem ofMillis_of_hasDate {millis : Int} (h : HasDate millis) :
    naming.ofMillis docType millis =
      .ok (naming.ofDate docType (Date.ofDay (millis / 86400000))) := by
  rw [ofMillis, h.dayOfMillis_eq_ok]
  rfl

theorem ofDate_ofDay_lt
    {a b : Int}
    (ha : firstDay ≤ a)
    (hb : b ≤ lastDay)
    (hlt : a < b) :
    naming.ofDate docType (Date.ofDay a) < naming.ofDate docType (Date.ofDay b) := by
  refine ofDate_lt_ofDate naming docType (inCalendar_ofDay ha (by omega))
    (inCalendar_ofDay (by omega) hb) ?_
  refine Date.isBefore_of_toDay_lt (Date.isValid_ofDay a) (Date.isValid_ofDay b) ?_
  rwa [Date.toDay_ofDay, Date.toDay_ofDay]

/-- **Names of partitions are in the order of their days.**  Of two instants with dates in the years
1 to 9999, both have a partition; it is the same one just when they lie on the same day, and the
first has the smaller name just when its day is the earlier one. -/
theorem ofMillis_keepsOrder
    {first second : Int}
    (hfirst : HasDate first)
    (hsecond : HasDate second) :
    ∃ a b, naming.ofMillis docType first = .ok a ∧ naming.ofMillis docType second = .ok b ∧
      (a = b ↔ first / 86400000 = second / 86400000) ∧
      (a < b ↔ first / 86400000 < second / 86400000) := by
  refine ⟨_, _, ofMillis_of_hasDate naming docType hfirst,
    ofMillis_of_hasDate naming docType hsecond, ?_⟩
  obtain ⟨hfirst, hfirst'⟩ := hasDate_iff.mp hfirst
  obtain ⟨hsecond, hsecond'⟩ := hasDate_iff.mp hsecond
  rcases Int.lt_trichotomy (first / 86400000) (second / 86400000) with hlt | heq | hgt
  · have hnames := ofDate_ofDay_lt naming docType hfirst hsecond' hlt
    exact ⟨iff_of_false (fun h => String.lt_irrefl _ (h ▸ hnames)) (by omega),
      iff_of_true hnames hlt⟩
  · rw [heq]
    exact ⟨iff_of_true rfl rfl, iff_of_false (String.lt_irrefl _) (by omega)⟩
  · have hnames := ofDate_ofDay_lt naming docType hsecond hfirst' hgt
    exact ⟨iff_of_false (fun h => String.lt_irrefl _ (h ▸ hnames)) (by omega),
      iff_of_false (fun h => String.lt_irrefl _ (String.lt_trans hnames h)) (by omega)⟩

/-- The last millisecond of the year 999 and the first one of the year 1000, with no mark between the
parts of a date. -/
theorem ofMillis_keepsOrder_millennium :
    Naming.ofMillis ⟨"zipkin", ""⟩ "span" (-30610224000001) = .ok "zipkin-span-09991231" ∧
      Naming.ofMillis ⟨"zipkin", ""⟩ "span" (-30610224000000) = .ok "zipkin-span-10000101" ∧
      "zipkin-span-09991231" < "zipkin-span-10000101" := by
  have hfirst : Naming.ofMillis ⟨"zipkin", ""⟩ "span" (-30610224000001) =
      .ok "zipkin-span-09991231" := rfl
  have hsecond : Naming.ofMillis ⟨"zipkin", ""⟩ "span" (-30610224000000) =
      .ok "zipkin-span-10000101" := rfl
  have hdates : HasDate (-30610224000001) ∧ HasDate (-30610224000000) := by decide
  obtain ⟨a, b, ha, hb, -, hlt⟩ := ofMillis_keepsOrder ⟨"zipkin", ""⟩ "span" hdates.1 hdates.2
  cases hfirst.symm.trans ha
  cases hsecond.symm.trans hb
  exact ⟨hfirst, hsecond, hlt.mpr (by decide)⟩

end Naming
end TraceArchive
