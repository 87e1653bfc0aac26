import TraceArchive.Document.Checked
import TraceArchive.Text.Integer
import TraceArchive.Text.Lower

/-!
# Reading the members of a document

Readers for integers, texts, flags, dictionaries and sequences, and for members that are required,
have a default, or go by one of two names.  The values of a document are JSON values; what else may
be passed for them is left to `TraceArchive.Document.Argument`.

* An integer is also read from a flag, from a double without a fraction, and from a text such as
  `" -1_000.00 "`.
* A flag is also read from the numbers zero and one and from words such as `"off"` and `"YES"`.
-/

set_option autoImplicit false

namespace TraceArchive

/-- The members of a document. -/
abbrev Members := List (String × Json)

namespace Document

/-- Words of 64 bits with a sign lie below two to the power of 63. -/
def wordLimit : Int := 9223372036854775808

/-- Reads an integer from a double: it has no fraction, and both it and its negation are words of 64
bits with a sign. -/
def integerOfDouble : Double → Checked Int
  | .infinite _ => .fail .infiniteNumber
  | value => match value.toInt? with
      | some n => if -wordLimit < n ∧ n < wordLimit then .ok n else .fail .oversizedInteger
      | none => .fail .fractionalNumber

/-- Reads an integer. -/
def integer : Json → Checked Int
  | .int n => .ok n
  | .bool b => .ok (if b then 1 else 0)
  | .float value => integerOfDouble value
  | .str s => match Text.readInteger s.toList with
      | .ok n => .ok n
      | .error .malformed => .fail .unreadableInteger
      | .error .tooLong => .fail .oversizedInteger
  | _ => .fail .notInteger

/-- An integer that has to lie above a bound. -/
def above (bound n : Int) : Checked Int :=
  if bound < n then .ok n else .fail (.notAbove bound)

/-- Reads an integer above a bound. -/
def integerAbove (bound : Int) (value : Json) : Checked Int :=
  (integer value).andThen (above bound)

/-- Reads an integer above one bound and not above another. -/
def integerWithin (bound limit : Int) (value : Json) : Checked Int :=
  (integer value).andThen fun n => if limit < n then .fail (.above limit) else above bound n

/-- Reads a text. -/
def text : Json → Checked String
  | .str s => .ok s
  | _ => .fail .notText

/-- The capital ASCII letters of a text made small. -/
def asciiLower (chars : List Char) : List Char :=
  chars.map fun c => if 'A' ≤ c ∧ c ≤ 'Z' then Char.ofNat (c.toNat + 32) else c

/-- The flag that a word stands for. -/
def flagWord? (word : String) : Option Bool :=
  let word := String.ofList (asciiLower word.toList)
  if ["0", "off", "f", "false", "n", "no"].contains word then some false
  else if ["1", "on", "t", "true", "y", "yes"].contains word then some true
  else none

/-- Reads a flag from an integer. -/
def flagOfInt (n : Int) : Checked Bool :=
  if n = 0 then .ok false
  else if n = 1 then .ok true
  else .fail .unreadableFlag

/-- Reads a flag; numbers outside the words of 64 bits are none, nor are fractions. -/
def flag : Json → Checked Bool
  | .bool b => .ok b
  | .int n => if -wordLimit ≤ n ∧ n < wordLimit then flagOfInt n else .fail .notFlag
  | .float value => match integerOfDouble value with
      | .ok n => flagOfInt n
      | .refused _ => .fail .notFlag
  | .str s => match flagWord? s with
      | some b => .ok b
      | none => .fail .unreadableFlag
  | _ => .fail .notFlag

/-- Reads a value that may be null. -/
def nullable {α : Type} (read : Json → Checked α) : Json → Checked (Option α)
  | .null => .ok none
  | value => match read value with
      | .ok a => .ok (some a)
      | .refused issues => .refused issues

/-- Reads a name that may be null, in lower case; an empty name is none. -/
def loweredName (value : Json) : Checked (Option String) :=
  (nullable text value).andThen fun name => .ok ((name.map Text.lower).filter (· ≠ ""))

/-- Reads a dictionary of texts. -/
def textEntries : Json → Checked (Entries String String)
  | .obj members =>
      .all (members.map fun (key, value) => (Prod.mk key <$> text value).under (.member key))
  | _ => .fail .notDictionary

/-- Reads the items of a sequence. -/
def sequence {α : Type} (read : Json → Checked α) : Json → Checked (List α)
  | .arr items => .all (items.zipIdx.map fun (item, i) => (read item).under (.item i))
  | _ => .fail .notSequence

/-- Reads an object with a reader of its members; `record` names what is expected. -/
def record {α : Type} (record : String) (read : Members → Checked α) : Json → Checked α
  | .obj members => read members
  | _ => .fail (.notRecord record)

section Named

variable {V α : Type}

/-- The first of the names that is present, with its value. -/
def find? (names : List String) (members : List (String × V)) : Option (String × V) :=
  names.findSome? fun name => (Entries.get? name members).map (name, ·)

/-- Reads a member that must be present and may go by several names; a missing one is reported under
the first. -/
def required (names : List String) (read : V → Checked α) (members : List (String × V)) :
    Checked α :=
  match find? names members with
  | some (name, value) => (read value).under (.member name)
  | none => (Checked.fail .missing).under (.member (names.headD ""))

/-- Reads a member that has a default and may go by several names. -/
def optional
    (names : List String)
    (default : α)
    (read : V → Checked α)
    (members : List (String × V)) :
    Checked α :=
  match find? names members with
  | some (name, value) => (read value).under (.member name)
  | none => .ok default

end Named

end Document
end TraceArchive
