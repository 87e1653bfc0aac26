/-!
# Classes of code points, and trimming

A class of the Unicode standard is given by the closed ranges of its code points.  Two of them are
about blanks: the white space of the Unicode standard, and the blanks, which hold the four
information separators as well.  Neither holds the zero-width space, the Mongolian vowel separator
or the byte order mark.
-/

set_option autoImplicit false

namespace TraceArchive
namespace Text

/-- A code point lies in one of the closed ranges. -/
def inRanges (ranges : List (Nat × Nat)) (code : Nat) : Bool :=
  ranges.any fun range => range.1 ≤ code && code ≤ range.2

/-- White space of the Unicode standard. -/
def isWhiteSpace (c : Char) : Bool :=
  inRanges
    [(0x9, 0xD), (0x20, 0x20), (0x85, 0x85), (0xA0, 0xA0), (0x1680, 0x1680), (0x2000, 0x200A),
      (0x2028, 0x2029), (0x202F, 0x202F), (0x205F, 0x205F), (0x3000, 0x3000)]
    c.toNat

/-- White space or an information separator. -/
def isBlank (c : Char) : Bool :=
  isWhiteSpace c || inRanges [(0x1C, 0x1F)] c.toNat

/-- The text without the code points of a class at its start and its end. -/
def trimBy (drop : Char → Bool) (chars : List Char) : List Char :=
  ((chars.dropWhile drop).reverse.dropWhile drop).reverse

/-- The text without blanks at its start and its end. -/
def trim (chars : List Char) : List Char :=
  trimBy isBlank chars

@[simp] theorem trimBy_nil (drop : Char → Bool) : trimBy drop [] = [] := rfl

end Text
end TraceArchive
