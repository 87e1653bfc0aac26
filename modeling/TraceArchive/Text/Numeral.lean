/-!
# Numerals in base ten and sixteen

Digits above nine are the letters `a`–`f`, lower-case only.

* `length_padZeros`: padding reaches the width and never shortens.
-/

set_option autoImplicit false

namespace TraceArchive
namespace Text

/-- The value of a digit `0`–`9` or `a`–`f`. -/
def digitValue (c : Char) : Option Nat :=
  if '0' ≤ c ∧ c ≤ '9' then some (c.toNat - '0'.toNat)
  else if 'a' ≤ c ∧ c ≤ 'f' then some (c.toNat - 'a'.toNat + 10)
  else none

/-- An ASCII decimal digit. -/
def isDecimalDigit (c : Char) : Bool :=
  '0' ≤ c && c ≤ '9'

/-- A decimal digit or one of the letters `a`–`f`. -/
def isLowerHexDigit (c : Char) : Bool :=
  isDecimalDigit c || ('a' ≤ c && c ≤ 'f')

/-- The number that a run of digits stands for in the given base. -/
def digitsValue (base : Nat) (digits : List Char) : Nat :=
  digits.foldl (fun value c => base * value + (digitValue c).getD 0) 0

/-- The digits after as many zeros as fill up the width. -/
def padZeros (width : Nat) (digits : List Char) : List Char :=
  List.replicate (width - digits.length) '0' ++ digits

/-- A number in base ten with at least `width` digits. -/
def decimal (width : Nat) (n : Nat) : List Char :=
  padZeros width (Nat.toDigits 10 n)

/-- A number in lower-case base sixteen with at least `width` digits. -/
def lowerHex (width : Nat) (n : Nat) : List Char :=
  padZeros width (Nat.toDigits 16 n)

/-- An integer in base ten, a minus sign in front of a negative one. -/
def ofInt : Int → List Char
  | .ofNat n => decimal 1 n
  | .negSucc n => '-' :: decimal 1 (n + 1)

theorem length_padZeros
    (width : Nat)
    (digits : List Char) :
    (padZeros width digits).length = max width digits.length := by
  simp [padZeros]
  omega

@[simp] theorem digitsValue_nil (base : Nat) : digitsValue base [] = 0 := rfl

end Text
end TraceArchive
