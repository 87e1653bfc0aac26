import TraceArchive.Text.Numeral

/-!
# Trace IDs

A trace ID has a high and a low half.  Its text is lower-case hexadecimal: sixteen digits when the
high half is zero, thirty-two otherwise.  The text is read from one to thirty-two digits.

* `parse?_isSome_iff`: which texts are read.
-/

set_option autoImplicit false

namespace TraceArchive

/-- The two halves of a trace ID; a half outside 64 bits stands for its remainder. -/
structure TraceId where
  high : Int
  low : Int
  deriving DecidableEq, Repr, Inhabited

namespace TraceId

/-- The number of values of a half, two to the power of 64. -/
def halfCount : Nat := 18446744073709551616

/-- A half as an unsigned number of 64 bits. -/
def unsigned (half : Int) : Nat :=
  (half % halfCount).toNat

theorem unsigned_lt (half : Int) : unsigned half < halfCount := by
  simp only [unsigned, halfCount]
  omega

/-- The hexadecimal digits of a trace ID. -/
def hexDigits (id : TraceId) : List Char :=
  if unsigned id.high = 0 then Text.lowerHex 16 (unsigned id.low)
  else Text.lowerHex 16 (unsigned id.high) ++ Text.lowerHex 16 (unsigned id.low)

/-- The hexadecimal text of a trace ID. -/
def hex (id : TraceId) : String :=
  String.ofList id.hexDigits

/-- One to thirty-two lower-case hexadecimal digits. -/
def isHexText (digits : List Char) : Bool :=
  !digits.isEmpty && digits.length ≤ 32 && digits.all Text.isLowerHexDigit

/-- The halves that a run of hexadecimal digits stands for; the last sixteen are the low half. -/
def ofDigits (digits : List Char) : TraceId :=
  let highDigits := digits.take (digits.length - 16)
  let lowDigits := digits.drop (digits.length - 16)
  ⟨Text.digitsValue 16 highDigits, Text.digitsValue 16 lowDigits⟩

/-- The trace ID of a hexadecimal text. -/
def parse? (text : String) : Option TraceId :=
  if isHexText text.toList then some (ofDigits text.toList) else none

theorem parse?_isSome_iff {text : String} :
    (parse? text).isSome ↔ isHexText text.toList = true := by
  simp [parse?]

/-- The identity of a trace: both halves when strict, else the low half alone. -/
def key (strict : Bool) (id : TraceId) : TraceId :=
  ⟨if strict then id.high else 0, id.low⟩

@[simp] theorem key_strict (id : TraceId) : key true id = id := rfl

@[simp] theorem key_lenient (id : TraceId) : key false id = ⟨0, id.low⟩ := rfl

end TraceId
end TraceArchive
