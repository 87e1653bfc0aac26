import TraceArchive.Span
import TraceArchive.Text.Blank
import TraceArchive.Text.Split

/-!
# Search criteria

What a trace has to satisfy to be found.  Timestamps and the lookback are in milliseconds,
durations in microseconds.  An annotation query maps a key to the value that the tag must have, or
to the empty text when it is enough that an annotation or a tag with that key is present.
-/

set_option autoImplicit false

namespace TraceArchive

/-- Keys and the tag values asked for; an empty value asks for presence only. -/
abbrev AnnotationQuery := Entries String String

namespace AnnotationQuery

/-- One entry of the textual form, if it is not blank: a key, or a key, an equals sign and a
value. -/
def readEntry (entry : List Char) : Option (String × String) :=
  let trimmed := Text.trim entry
  if trimmed.isEmpty then none
  else match Text.cut? ['='] trimmed with
    | none => some (String.ofList trimmed, "")
    | some (key, value) =>
        some (String.ofList (Text.trim key), String.ofList (Text.trim value))

/-- Reads the textual form, entries joined by the word “and” between spaces. -/
def parse (text : String) : AnnotationQuery :=
  Entries.ofList ((Text.splitOn " and ".toList (by decide) text.toList).filterMap readEntry)

/-- An entry as one word: the key alone, or the key, an equals sign and the value. -/
def word (entry : String × String) : String :=
  if entry.2 = "" then entry.1 else entry.1 ++ "=" ++ entry.2

end AnnotationQuery

/-- What a trace has to satisfy to be found. -/
structure Criteria where
  serviceName : Option String
  spanName : Option String
  annotationQuery : AnnotationQuery
  minDuration : Option Int
  maxDuration : Option Int
  endTs : Int
  lookback : Int
  limit : Int
  deriving DecidableEq, Repr

end TraceArchive
