import TraceArchive.Json
import TraceArchive.Decimal.Shortest
import TraceArchive.Text.Quoted

/-!
# JSON values as text

Two renderings.  The literal form shows a value with `None`, `True` and `False` for the constants,
texts in quotes, lists in brackets and objects in braces.  The plain form is the literal one, but
for a text it is the text itself.  Integers are written out whatever the number of their digits.
-/

set_option autoImplicit false

namespace TraceArchive
namespace Json

mutual

/-- The literal form of a value. -/
def literalChars : Json → List Char
  | .null => "None".toList
  | .bool true => "True".toList
  | .bool false => "False".toList
  | .int n => Text.ofInt n
  | .float d => d.text
  | .str s => Text.quotedChars s.toList
  | .arr items => '[' :: itemChars items ++ [']']
  | .obj members => '\x7b' :: memberChars members ++ ['\x7d']

/-- The literal forms of the items of a list, parted by commas. -/
def itemChars : List Json → List Char
  | [] => []
  | [item] => literalChars item
  | item :: rest => literalChars item ++ ',' :: ' ' :: itemChars rest

/-- The members of an object, parted by commas. -/
def memberChars : List (String × Json) → List Char
  | [] => []
  | [(name, value)] => Text.quotedChars name.toList ++ ':' :: ' ' :: literalChars value
  | (name, value) :: rest =>
      Text.quotedChars name.toList ++ ':' :: ' ' :: literalChars value ++
        ',' :: ' ' :: memberChars rest

end

/-- The literal form of a value. -/
def literal (value : Json) : String :=
  String.ofList value.literalChars

/-- The plain form of a value. -/
def plain : Json → String
  | .str s => s
  | value => value.literal

@[simp] theorem plain_str (s : String) : plain (.str s) = s := rfl

end Json
end TraceArchive
