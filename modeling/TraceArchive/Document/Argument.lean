import TraceArchive.Document.Member

/-!
# Arguments

Members of a document are JSON values.  Whoever passes them as arguments may also pass values of
other kinds, such as octets.  Such a value is known by what is made of it where a text, an integer or
a dictionary of texts is expected.

* `Foreign.octets`: octets are the text that they encode in UTF-8.
* `Argument.text`, `Argument.integer`, `Argument.textEntries`: readers of both kinds of values.
-/

set_option autoImplicit false

namespace TraceArchive

/-- A value that is no JSON value, by what is read from it. -/
structure Foreign where
  text : Checked String
  integer : Checked Int
  textEntries : Checked (Entries String String)

/-- Octets are read as the text that they encode, and as the integer that this text stands for. -/
def Foreign.octets (bytes : ByteArray) : Foreign :=
  match String.fromUTF8? bytes with
  | some text => ⟨.ok text, Document.integer (.str text), .fail .notDictionary⟩
  | none => ⟨.fail .undecodableText, .fail .unreadableInteger, .fail .notDictionary⟩

/-- The octets of a text are read as the text. -/
theorem Foreign.octets_toUTF8 (text : String) :
    octets text.toUTF8 = ⟨.ok text, Document.integer (.str text), .fail .notDictionary⟩ := by
  have hdecoded : String.fromUTF8? text.toUTF8 = some text := dif_pos text.isValidUTF8
  rw [octets, hdecoded]

/-- A value that is passed as an argument. -/
inductive Argument where
  | json (value : Json)
  | foreign (value : Foreign)

/-- Arguments with the names that they are passed under. -/
abbrev Arguments := List (String × Argument)

/-- The members of a document as arguments. -/
def Arguments.ofMembers (members : Members) : Arguments :=
  members.map fun (name, value) => (name, .json value)

namespace Argument

/-- Reads a text. -/
def text : Argument → Checked String
  | .json value => Document.text value
  | .foreign value => value.text

/-- Reads an integer. -/
def integer : Argument → Checked Int
  | .json value => Document.integer value
  | .foreign value => value.integer

/-- Reads an integer above a bound. -/
def integerAbove (bound : Int) (argument : Argument) : Checked Int :=
  argument.integer.andThen (Document.above bound)

/-- Reads a dictionary of texts. -/
def textEntries : Argument → Checked (Entries String String)
  | .json value => Document.textEntries value
  | .foreign value => value.textEntries

/-- Reads a value that may be null. -/
def nullable {α : Type} (read : Argument → Checked α) : Argument → Checked (Option α)
  | .json .null => .ok none
  | argument => some <$> read argument

end Argument
end TraceArchive
