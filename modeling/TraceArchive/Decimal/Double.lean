/-!
# Doubles

Numbers of the form `m · 2 ^ e` with a significand of at most 53 bits, and the two infinities.
Rounding a quotient of natural numbers goes to the nearest such number, and to the even significand
when two are equally near.

* `le_roundDiv`: a rounded quotient lies at most half a unit below the exact one.
-/

set_option autoImplicit false

namespace TraceArchive

/-- A binary floating-point number; the significand is below `2 ^ 53` and as large as it can be, the
exponent at least `-1074`. -/
inductive Double where
  | finite (negative : Bool) (significand : Nat) (exponent : Int)
  | infinite (negative : Bool)
  deriving DecidableEq, Repr, Inhabited

namespace Double

/-- Significands are below two to the power of 53. -/
def significandLimit : Nat := 9007199254740992

/-- The power of a base whose exponent is the positive part of an integer. -/
def scale (base : Nat) (exponent : Int) : Nat :=
  Nat.pow base exponent.toNat

/-- The quotient rounded to the nearest natural number, a half to the even neighbour. -/
def roundDiv (num den : Nat) : Nat :=
  let quotient := num / den
  let twice := 2 * (num % den)
  if twice < den then quotient
  else if den < twice then quotient + 1
  else if quotient % 2 = 0 then quotient else quotient + 1

/-- A rounded quotient is at most half a unit below the exact one. -/
theorem le_roundDiv
    {den : Nat}
    (num : Nat)
    (hd : 0 < den) :
    2 * num ≤ 2 * (roundDiv num den * den) + den := by
  have h := Nat.div_add_mod num den
  have hm := Nat.mod_lt num hd
  rw [Nat.mul_comm] at h
  simp only [roundDiv]
  split
  · omega
  · split
    · rw [Nat.add_mul]; omega
    · split
      · omega
      · rw [Nat.add_mul]; omega

/-- The exponent of the grid on which a positive quotient has a significand of 53 bits, or the least
exponent if that is larger. -/
def gridExponent (num den : Nat) : Int :=
  let guess : Int := (Nat.log2 num : Int) - (Nat.log2 den : Int) - 53
  let fits (e : Int) : Bool := num * scale 2 (-e) < significandLimit * (den * scale 2 e)
  let e := if fits guess then guess else if fits (guess + 1) then guess + 1 else guess + 2
  max e (-1074)

/-- The double nearest to `num / den`, for a positive divisor. -/
def ofRatio (negative : Bool) (num den : Nat) : Double :=
  if num = 0 then .finite negative 0 (-1074)
  else
    let e := gridExponent num den
    let m := roundDiv (num * scale 2 (-e)) (den * scale 2 e)
    let (m, e) := if m = significandLimit then (significandLimit / 2, e + 1) else (m, e)
    if 971 < e then .infinite negative else .finite negative m e

/-- The double nearest to `digits · 10 ^ exponent`. -/
def ofDecimal (negative : Bool) (digits : Nat) (exponent : Int) : Double :=
  if digits = 0 then .finite negative 0 (-1074)
  else
    let magnitude : Int := Nat.log2 digits + exponent * 3
    if 1100 < magnitude ∧ 0 < exponent then .infinite negative
    else if exponent < 0 ∧ (Nat.log2 digits + 1 : Int) + exponent * 3 < -1100 then
      .finite negative 0 (-1074)
    else ofRatio negative (digits * scale 10 exponent) (scale 10 (-exponent))

/-- The integer that a double is equal to, if any. -/
def toInt? : Double → Option Int
  | .infinite _ => none
  | .finite negative m e =>
      if m % scale 2 (-e) = 0 then
        let n : Int := (m / scale 2 (-e) * scale 2 e : Nat)
        some (if negative then -n else n)
      else none

/-- Zero, of either sign. -/
def isZero : Double → Bool
  | .finite _ significand _ => significand = 0
  | .infinite _ => false

/-- A finite double as a quotient with a positive divisor. -/
def quotient? : Double → Option (Int × Nat)
  | .infinite _ => none
  | .finite negative m e =>
      let n : Int := (m * scale 2 e : Nat)
      some (if negative then -n else n, scale 2 (-e))

/-- The double nearest to a quotient of integers, for a positive divisor. -/
def ofQuotient (num : Int) (den : Nat) : Double :=
  ofRatio (num < 0) num.natAbs den

/-- The double nearest to an integer. -/
def ofInt (n : Int) : Double :=
  ofQuotient n 1

/-- The double nearest to the difference of two finite doubles; zero has no sign. -/
def sub? (a b : Double) : Option Double := do
  let (num, den) ← a.quotient?
  let (num', den') ← b.quotient?
  return ofQuotient (num * den' - num' * den) (den * den')

/-- The largest integer that is not above a finite double. -/
def floor? (value : Double) : Option Int :=
  value.quotient?.map fun (num, den) => num.fdiv den

/-- The integer nearest to a finite double, a half to the even neighbour. -/
def round? : Double → Option Int
  | .infinite _ => none
  | .finite negative m e =>
      let n : Int := roundDiv (m * scale 2 e) (scale 2 (-e))
      some (if negative then -n else n)

end Double
end TraceArchive
