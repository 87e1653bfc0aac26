import TraceArchive.Text.Blank
import TraceArchive.Text.Numeral
import TraceArchive.Text.Printable.Table

/-!
# Quoted texts

A text in single quotes, or in double quotes when it holds a single quote and no double one.  The
backslash, the quote in use, line feed, carriage return and tab get a backslash; any other
unprintable code point is written as a hexadecimal escape of two, four or eight digits.  A code
point is printable unless its category is Other or Separator; the space is printable.
-/

set_option autoImplicit false

namespace TraceArchive
namespace Text

/-- A code point that is shown as itself. -/
def isPrintable (c : Char) : Bool :=
  !inRanges unprintableRanges c.toNat

/-- The quote that a text is put in. -/
def quoteMark (chars : List Char) : Char :=
  if chars.contains '\x27' && !chars.contains '\x22' then '\x22' else '\x27'

/-- The hexadecimal escape of a code point. -/
def hexEscape (c : Char) : List Char :=
  if c.toNat < 0x100 then '\\' :: 'x' :: lowerHex 2 c.toNat
  else if c.toNat < 0x10000 then '\\' :: 'u' :: lowerHex 4 c.toNat
  else '\\' :: 'U' :: lowerHex 8 c.toNat

/-- A code point as it stands between two quotes `mark`. -/
def escapeChar (mark c : Char) : List Char :=
  if c = mark ∨ c = '\\' then ['\\', c]
  else if c = '\n' then ['\\', 'n']
  else if c = '\r' then ['\\', 'r']
  else if c = '\t' then ['\\', 't']
  else if isPrintable c then [c]
  else hexEscape c

/-- A text in quotes. -/
def quotedChars (chars : List Char) : List Char :=
  quoteMark chars :: chars.flatMap (escapeChar (quoteMark chars)) ++ [quoteMark chars]

/-- A text in quotes. -/
def quoted (text : String) : String :=
  String.ofList (quotedChars text.toList)

end Text
end TraceArchive
