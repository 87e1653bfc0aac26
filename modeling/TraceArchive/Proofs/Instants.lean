import Mathlib.Tactic.Ring
import TraceArchive.Proofs.Calendar

/-!
# The instants that have a day

An instant in whole milliseconds has a day just when the day lies in the years 1 to 9999, however far
out the instant is: where its seconds are those of a double, the double is too close to the instant
to fall back into these years.

* `Double.quotient?_ofRatio`: a double is not much smaller than the quotient it is nearest to.
* `Calendar.dayOfMillis_eq_ok_iff`: the instants that have a day, and which one.
* `Calendar.exists_dayOfMillis_eq_error_iff`: the instants that have none.
-/

set_option autoImplicit false

namespace TraceArchive

namespace Double

theorem scale_pos (exponent : Int) : 0 < scale 2 exponent :=
  Nat.two_pow_pos _

theorem scale_of_nonpos {exponent : Int} (h : exponent ≤ 0) : scale 2 exponent = 1 := by
  rw [scale, Int.toNat_of_nonpos h, Nat.pow_eq, Nat.pow_zero]

theorem scale_succ {exponent : Int} (h : 0 ≤ exponent) :
    scale 2 (exponent + 1) = 2 * scale 2 exponent := by
  obtain ⟨n, rfl⟩ := Int.eq_ofNat_of_zero_le h
  have hsucc : ((n : Int) + 1).toNat = n + 1 := by omega
  have hself : (n : Int).toNat = n := by omega
  show 2 ^ ((n : Int) + 1).toNat = 2 * 2 ^ (n : Int).toNat
  rw [hsucc, hself, Nat.pow_succ, Nat.mul_comm]

/-- Halving a significand and raising its exponent does not change what is meant. -/
theorem carry_eq (exponent : Int) :
    significandLimit / 2 * scale 2 (exponent + 1) * scale 2 (-exponent) =
      significandLimit * scale 2 exponent * scale 2 (-(exponent + 1)) := by
  have hlimit : significandLimit = significandLimit / 2 * 2 := rfl
  generalize significandLimit / 2 = half at hlimit ⊢
  rw [hlimit]
  by_cases h : 0 ≤ exponent
  · rw [scale_succ h, scale_of_nonpos (show -exponent ≤ 0 by omega),
      scale_of_nonpos (show -(exponent + 1) ≤ 0 by omega)]
    ring
  · have hsucc := scale_succ (show 0 ≤ -(exponent + 1) by omega)
    rw [show -(exponent + 1) + 1 = -exponent by omega] at hsucc
    rw [hsucc, scale_of_nonpos (show exponent ≤ 0 by omega),
      scale_of_nonpos (show exponent + 1 ≤ 0 by omega)]
    ring

/-- On the grid of a quotient of at least one, the quotient is at least one unit. -/
theorem scaled_le
    {num den : Nat}
    (hden : 0 < den)
    (hle : den ≤ num) :
    den * scale 2 (gridExponent num den) ≤ num * scale 2 (-gridExponent num den) := by
  have hgrid : gridExponent num den ≤ (Nat.log2 num : Int) - Nat.log2 den - 51 ∨
      gridExponent num den ≤ 0 := by
    simp only [gridExponent]
    split
    · omega
    · split <;> omega
  by_cases hpos : gridExponent num den ≤ 0
  · rw [scale_of_nonpos hpos, Nat.mul_one]
    exact Nat.le_trans hle (Nat.le_mul_of_pos_right num (scale_pos _))
  · -- both sides are compared with the power of two below the dividend
    have hexponent : (gridExponent num den).toNat + (Nat.log2 den + 1) ≤ Nat.log2 num := by omega
    have hdivisor : den ≤ 2 ^ (Nat.log2 den + 1) := Nat.le_of_lt Nat.lt_log2_self
    calc den * scale 2 (gridExponent num den)
        ≤ 2 ^ (Nat.log2 den + 1) * 2 ^ (gridExponent num den).toNat :=
          Nat.mul_le_mul_right _ hdivisor
      _ = 2 ^ ((gridExponent num den).toNat + (Nat.log2 den + 1)) := by
          rw [← Nat.pow_add, Nat.add_comm]
      _ ≤ 2 ^ Nat.log2 num := Nat.pow_le_pow_right (by decide) hexponent
      _ ≤ num := Nat.log2_self_le (by omega)
      _ ≤ num * scale 2 (-gridExponent num den) := Nat.le_mul_of_pos_right num (scale_pos _)

/-- A quotient of at least one unit is rounded to no less than two thirds of it. -/
theorem le_mul_roundDiv {num den : Nat} (hden : 0 < den) (hle : den ≤ num) :
    2 * num ≤ 3 * (roundDiv num den * den) := by
  have hround := le_roundDiv num hden
  have hpos : roundDiv num den ≠ 0 := by
    intro hzero
    rw [hzero] at hround
    omega
  have hunit : den ≤ roundDiv num den * den := Nat.le_mul_of_pos_left den (Nat.pos_of_ne_zero hpos)
  omega

/-- The double nearest to a quotient, if it is finite, is the rounded number of units of the grid. -/
theorem ofRatio_eq
    {negative : Bool} {num den : Nat}
    (hnum : num ≠ 0) :
    ofRatio negative num den = .infinite negative ∨
      ∃ m e, ofRatio negative num den = .finite negative m e ∧
        m * scale 2 e * scale 2 (-gridExponent num den) =
          roundDiv (num * scale 2 (-gridExponent num den)) (den * scale 2 (gridExponent num den)) *
            scale 2 (gridExponent num den) * scale 2 (-e) := by
  rw [ofRatio, if_neg hnum]
  generalize gridExponent num den = e
  dsimp only
  generalize roundDiv (num * scale 2 (-e)) (den * scale 2 e) = m
  by_cases hcarry : m = significandLimit
  · rw [if_pos hcarry]
    dsimp only
    split
    · exact Or.inl rfl
    · exact Or.inr ⟨_, _, rfl, hcarry ▸ carry_eq e⟩
  · rw [if_neg hcarry]
    dsimp only
    split
    · exact Or.inl rfl
    · exact Or.inr ⟨_, _, rfl, rfl⟩

/-- A double that is nearest to a quotient of at least one, if it is finite, has the sign of the
quotient and at least two thirds of its size. -/
theorem quotient?_ofRatio
    {negative : Bool} {num den : Nat} {quotient : Int × Nat}
    (hden : 0 < den)
    (hle : den ≤ num)
    (h : (ofRatio negative num den).quotient? = some quotient) :
    ∃ size : Nat, quotient.1 = (if negative then -(size : Int) else size) ∧ 0 < quotient.2 ∧
      2 * (num * quotient.2) ≤ 3 * (size * den) := by
  have hnum : num ≠ 0 := by omega
  rcases @ofRatio_eq negative num den hnum with hinfinite | ⟨m, e, hfinite, hvalue⟩
  · rw [hinfinite] at h
    cases h
  · rw [hfinite] at h
    cases h
    refine ⟨_, rfl, scale_pos _, ?_⟩
    have hround := le_mul_roundDiv (Nat.mul_pos hden (scale_pos _)) (scaled_le hden hle)
    generalize gridExponent num den = g at hvalue hround
    generalize roundDiv (num * scale 2 (-g)) (den * scale 2 g) = r at hvalue hround
    -- the common factor is the divisor that the grid brings in
    refine Nat.le_of_mul_le_mul_right ?_ (scale_pos (-g))
    calc 2 * (num * scale 2 (-e)) * scale 2 (-g)
        = 2 * (num * scale 2 (-g)) * scale 2 (-e) := by ring
      _ ≤ 3 * (r * (den * scale 2 g)) * scale 2 (-e) := Nat.mul_le_mul_right _ hround
      _ = 3 * (r * scale 2 g * scale 2 (-e)) * den := by ring
      _ = 3 * (m * scale 2 e * scale 2 (-g)) * den := by rw [hvalue]
      _ = 3 * (m * scale 2 e * den) * scale 2 (-g) := by ring

end Double

namespace Calendar

/-- Seconds that are those of a double lie far outside of the years 1 to 9999. -/
theorem le_natAbs_of_wholeSeconds?
    {millis seconds : Int}
    (hfar : Double.significandLimit < millis.natAbs)
    (h : wholeSeconds? millis = some seconds) :
    seconds ≤ -1000000000000 ∨ 1000000000000 ≤ seconds := by
  rw [wholeSeconds?, if_neg (Nat.not_le_of_lt hfar), Double.floor?] at h
  obtain ⟨quotient, hquotient, rfl⟩ := Option.map_eq_some_iff.mp h
  have hlimit : Double.significandLimit = 9007199254740992 := rfl
  obtain ⟨size, hsign, hpos, hsize⟩ :=
    Double.quotient?_ofRatio (by decide) (by omega) hquotient
  obtain ⟨num, den⟩ := quotient
  dsimp only at hsign hpos hsize ⊢
  -- the size is at least the least seconds in question, in units of the divisor
  have hleast : (1000000000000 : Int) * den ≤ size := by
    have hunits := Nat.mul_le_mul_right den (Nat.le_of_lt hfar)
    rw [hlimit] at hunits
    omega
  rw [Int.fdiv_eq_ediv_of_nonneg _ (Int.natCast_nonneg den)]
  have hpos' : (0 : Int) < den := Int.natCast_pos.mpr hpos
  rcases Int.lt_or_le millis 0 with hnegative | hnegative
  · left
    rw [if_pos (decide_eq_true hnegative)] at hsign
    have hlt : num / (den : Int) < -1000000000000 + 1 := Int.ediv_lt_of_lt_mul hpos' (by omega)
    omega
  · right
    rw [if_neg (by simpa using hnegative)] at hsign
    exact Int.le_ediv_of_mul_le hpos' (by omega)

/-- The instants that have a day are those of the years 1 to 9999. -/
theorem dayOfMillis_eq_ok_iff {millis day : Int} :
    dayOfMillis millis = .ok day ↔ day = millis / 86400000 ∧ firstDay ≤ day ∧ day ≤ lastDay := by
  constructor
  · intro h
    obtain ⟨seconds, hseconds, rfl, hfirst, hlast⟩ := dayOfSeconds_eq_ok_iff.mp h
    refine ⟨?_, hfirst, hlast⟩
    simp only [firstDay, lastDay] at hfirst hlast
    by_cases hexact : millis.natAbs ≤ Double.significandLimit
    · rw [wholeSeconds?, if_pos hexact, Int.fdiv_eq_ediv_of_nonneg _ (by decide)] at hseconds
      cases hseconds
      omega
    · have := le_natAbs_of_wholeSeconds? (by omega) hseconds
      omega
  · rintro ⟨rfl, hfirst, hlast⟩
    exact dayOfMillis_eq hfirst hlast

/-- An instant without a date in these years has no day. -/
theorem exists_dayOfMillis_eq_error_iff {millis : Int} :
    (∃ error, dayOfMillis millis = .error error) ↔ ¬ HasDate millis := by
  constructor
  · rintro ⟨error, herror⟩ hdate
    rw [hdate.dayOfMillis_eq_ok] at herror
    cases herror
  · intro hnone
    cases hday : dayOfMillis millis with
    | error error => exact ⟨error, rfl⟩
    | ok day =>
        obtain ⟨rfl, hrange⟩ := dayOfMillis_eq_ok_iff.mp hday
        exact absurd (hasDate_iff.mpr hrange) hnone

end Calendar
end TraceArchive
