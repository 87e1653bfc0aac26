import TraceArchive.Decimal.Double
import TraceArchive.Entries

/-!
# JSON values

Integers have any size and are apart from doubles; the members of an object stand in order.
-/

set_option autoImplicit false

namespace TraceArchive

/-- A JSON value. -/
inductive Json where
  | null
  | bool (value : Bool)
  | int (value : Int)
  | float (value : Double)
  | str (value : String)
  | arr (items : List Json)
  | obj (members : List (String × Json))
  deriving Repr, BEq, Inhabited

namespace Json

/-- The member of an object with this name. -/
def member? (name : String) : Json → Option Json
  | .obj members => Entries.get? name members
  | _ => none

/-- The text that a value is, if it is one. -/
def text? : Json → Option String
  | .str text => some text
  | _ => none

/-- The elements of a value that has any: items, code points or member names. -/
def elements? : Json → Option (List Json)
  | .arr items => some items
  | .str text => some (text.toList.map fun c => .str c.toString)
  | .obj members => some (members.map fun member => .str member.1)
  | _ => none

/-- The word for the kind of a value. -/
def kindWord : Json → String
  | .null => "NoneType"
  | .bool _ => "bool"
  | .int _ => "int"
  | .float _ => "float"
  | .str _ => "str"
  | .arr _ => "list"
  | .obj _ => "dict"

/-- A value that counts as empty: nothing, zero, false, or without elements. -/
def isEmpty : Json → Bool
  | .null => true
  | .bool b => !b
  | .int n => n = 0
  | .float value => value.isZero
  | .str text => text.isEmpty
  | .arr items => items.isEmpty
  | .obj members => members.isEmpty

/-- An object with a single member. -/
def single (name : String) (value : Json) : Json :=
  .obj [(name, value)]

/-- An array of texts. -/
def texts (values : List String) : Json :=
  .arr (values.map .str)

end Json
end TraceArchive
