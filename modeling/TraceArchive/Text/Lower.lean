import TraceArchive.Text.Blank
import TraceArchive.Text.Lower.Table

/-!
# Lower-casing

Every code point is replaced by its lower-case form.  A capital sigma at the end of a word becomes
the final form of the small letter: case-ignorable code points aside, a cased letter stands before
it and none after it.

* `lowerBetween_of_ne`: the text around a code point matters only to a capital sigma.
-/

set_option autoImplicit false

namespace TraceArchive
namespace Text

/-- The run maps this code point. -/
def CaseRun.covers (run : CaseRun) (code : Nat) : Bool :=
  run.first ≤ code && code ≤ run.last && (code - run.first) % run.stride == 0

/-- The lower-case form of one code point, the final sigma aside. -/
def lowerChar (c : Char) : List Char :=
  if c = 'İ' then ['i', '\u0307']
  else
    match caseRuns.find? (·.covers c.toNat) with
    | some run => [Char.ofNat (c.toNat + run.shift).toNat]
    | none => [c]

/-- The nearest code point that is not case-ignorable exists and is cased. -/
def meetsCased (chars : List Char) : Bool :=
  match (chars.dropWhile fun c => inRanges caseIgnorableRanges c.toNat).head? with
  | some c => inRanges casedRanges c.toNat
  | none => false

/-- A capital sigma between these texts, the first one read backwards, ends a word. -/
def endsWord (before after : List Char) : Bool :=
  meetsCased before && !meetsCased after

/-- The lower-case form of a code point between these texts, the first one read backwards. -/
def lowerBetween (before : List Char) (c : Char) (after : List Char) : List Char :=
  if c = 'Σ' then [if endsWord before after then 'ς' else 'σ'] else lowerChar c

/-- The lower-case form of a text that stands after `before`, which is read backwards. -/
def lowerFrom (before : List Char) : List Char → List Char
  | [] => []
  | c :: rest => lowerBetween before c rest ++ lowerFrom (c :: before) rest

/-- The lower-case form of a text. -/
def lower (text : String) : String :=
  String.ofList (lowerFrom [] text.toList)

@[simp] theorem lower_empty : lower "" = "" := by
  simp [lower, lowerFrom]

theorem lowerBetween_of_ne
    {before after : List Char}
    {c : Char}
    (h : c ≠ 'Σ') :
    lowerBetween before c after = lowerChar c := by
  simp [lowerBetween, h]

end Text
end TraceArchive
