import TraceArchive.Criteria
import TraceArchive.Document.Argument

/-!
# Reading search criteria

Names are lower-cased; an empty service name, an empty span name and the span name `all` ask for
nothing.  Bounds on the duration are compared once every member has been read.

Names are brought into this form before they are read, and only where they are JSON texts.  A name
that is a text only once it has been read, such as octets, stays as it is.
-/

set_option autoImplicit false

namespace TraceArchive
namespace Criteria

open Document

/-- The service names that ask for nothing. -/
def blankServiceNames : List String := [""]

/-- The span names that ask for nothing. -/
def blankSpanNames : List String := ["", "all"]

/-- A name before it is read: a JSON text is lower-cased, and one that asks for nothing is null. -/
def normalizeName (blank : List String) : Argument → Argument
  | .json (.str name) =>
      let lowered := Text.lower name
      .json (if blank.contains lowered then .null else .str lowered)
  | argument => argument

/-- Reads a name that may be null. -/
def readName (blank : List String) (argument : Argument) : Checked (Option String) :=
  Argument.nullable Argument.text (normalizeName blank argument)

/-- Reads an annotation query in its textual form or as a dictionary. -/
def readAnnotationQuery : Argument → Checked AnnotationQuery
  | .json .null => .ok []
  | .json (.str s) => .ok (AnnotationQuery.parse s)
  | argument => argument.textEntries

/-- Criteria whose bounds on the duration fit together. -/
def checkDurations (criteria : Criteria) : Checked Criteria :=
  match criteria.minDuration, criteria.maxDuration with
  | _, none => .ok criteria
  | none, some _ => .fail (.refused .maximumWithoutMinimum)
  | some least, some most =>
      if most < least then .fail (.refused .maximumBelowMinimum) else .ok criteria

/-- Reads criteria from arguments. -/
def ofArguments (arguments : Arguments) : Checked Criteria :=
  Checked.andThen
    (Criteria.mk
      <$> optional ["service_name"] none (readName blankServiceNames) arguments
      <*> optional ["span_name"] none (readName blankSpanNames) arguments
      <*> optional ["annotation_query"] [] readAnnotationQuery arguments
      <*> optional ["min_duration"] none (Argument.nullable (Argument.integerAbove 0)) arguments
      <*> optional ["max_duration"] none (Argument.nullable Argument.integer) arguments
      <*> required ["end_ts"] (Argument.integerAbove 0) arguments
      <*> required ["lookback"] (Argument.integerAbove 0) arguments
      <*> required ["limit"] (Argument.integerAbove 0) arguments)
    checkDurations

/-- Reads search criteria from a document. -/
def read : Json → Checked Criteria :=
  record "QueryRequest" fun members => ofArguments (.ofMembers members)

end Criteria
end TraceArchive
