import TraceArchive.Decimal.Double
import TraceArchive.Text.Numeral

/-!
# Shortest decimals

The text of a double has the fewest digits that read back as the same double, and of those the
digits nearest to its value.  For every number of digits the two neighbours of the value on that
decimal grid are tried; the first grid with a hit wins.
-/

set_option autoImplicit false

namespace TraceArchive
namespace Double

/-- Digits `digits · 10 ^ exponent` of a positive double. -/
structure Decimal where
  digits : Nat
  exponent : Int
  deriving DecidableEq, Repr

/-- The value of a positive double as a quotient. -/
def ratio (significand : Nat) (exponent : Int) : Nat × Nat :=
  (significand * scale 2 exponent, scale 2 (-exponent))

/-- The number of decimal digits before the point: the `p` for which `num / den` lies from
`10 ^ (p - 1)` to below `10 ^ p`. -/
def pointPosition (num den : Nat) : Int :=
  if den ≤ num then ((Nat.toDigits 10 (num / den)).length : Int)
  else 1 - ((Nat.toDigits 10 ((den + num - 1) / num - 1)).length : Int)

/-- The neighbour of the value on the grid of step `10 ^ exponent` that reads back, the nearer one
if both do. -/
def hitOnGrid? (significand : Nat) (binary : Int) (exponent : Int) : Option Decimal :=
  let value := ratio significand binary
  let num := value.1 * scale 10 (-exponent)
  let den := value.2 * scale 10 exponent
  let below := num / den
  let readsBack (digits : Nat) : Bool :=
    ofDecimal false digits exponent == .finite false significand binary
  let nearer := roundDiv num den
  let farther := if nearer = below then below + 1 else below
  if readsBack nearer then some ⟨nearer, exponent⟩
  else if readsBack farther then some ⟨farther, exponent⟩
  else none

/-- The shortest decimal that reads back as the positive double `significand · 2 ^ binary`. -/
def shortest (significand : Nat) (binary : Int) : Decimal :=
  let value := ratio significand binary
  let point := pointPosition value.1 value.2
  let hits := (List.range 17).filterMap fun n =>
    hitOnGrid? significand binary (point - (n + 1 : Nat))
  hits.headD ⟨value.1 / value.2, 0⟩

/-- The digits without zeros at their end, and how many digits stand before the point. -/
def Decimal.layout (decimal : Decimal) : List Char × Int :=
  let digits := Nat.toDigits 10 decimal.digits
  let kept := (digits.reverse.dropWhile (· == '0')).reverse
  (kept, digits.length + decimal.exponent)

/-- A decimal with its point: positional from `10 ^ (-4)` to below `10 ^ 16`, with an exponent of at
least two digits outside. -/
def Decimal.text (decimal : Decimal) : List Char :=
  let (digits, point) := decimal.layout
  if -4 < point ∧ point ≤ 0 then
    '0' :: '.' :: List.replicate (-point).toNat '0' ++ digits
  else if 0 < point ∧ point ≤ 16 then
    let whole := digits.take point.toNat
    let rest := digits.drop point.toNat
    whole ++ List.replicate (point.toNat - whole.length) '0' ++ '.' ::
      (if rest.isEmpty then ['0'] else rest)
  else
    let e := point - 1
    let rest := digits.drop 1
    digits.take 1 ++ (if rest.isEmpty then [] else '.' :: rest) ++
      'e' :: (if e < 0 then '-' else '+') :: Text.decimal 2 e.natAbs

/-- The text of a double; a whole number keeps `.0`. -/
def text : Double → List Char
  | .infinite negative => (if negative then ['-'] else []) ++ ['i', 'n', 'f']
  | .finite negative m e =>
      (if negative then ['-'] else []) ++
        (if m = 0 then ['0', '.', '0'] else (shortest m e).text)

end Double
end TraceArchive
