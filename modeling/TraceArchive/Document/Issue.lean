import TraceArchive.Json.Text

/-!
# What is wrong with a document

A document is refused with a list of issues.  An issue has a place, the path of member names and
positions that leads to it, and a cause.
-/

set_option autoImplicit false

namespace TraceArchive

/-- One step on the path to a part of a document. -/
inductive Step where
  | member (name : String)
  | item (position : Nat)
  deriving DecidableEq, Repr

/-- A rule of a document as a whole that its members break. -/
inductive Refusal where
  | invalidTraceId (value : Json)
  | maximumWithoutMinimum
  | maximumBelowMinimum
  deriving Repr, BEq

/-- Why a part of a document is refused. -/
inductive Cause where
  | missing
  | notInteger
  | unreadableInteger
  | oversizedInteger
  | fractionalNumber
  | infiniteNumber
  | notAbove (bound : Int)
  | above (bound : Int)
  | notText
  | undecodableText
  | notFlag
  | unreadableFlag
  | unknownKind
  | notDictionary
  | notSequence
  | notRecord (record : String)
  | unknownBackend
  | refused (reason : Refusal)
  deriving Repr, BEq

/-- A part of a document that is refused. -/
structure Issue where
  place : List Step
  cause : Cause
  deriving Repr, BEq

namespace Refusal

/-- The wording for a text that is no trace ID. -/
def traceIdMessage (value : Json) : String :=
  value.literal ++ " should be a 1 to 32 character lower-hex string with no prefix"

/-- The wording of a broken rule. -/
def message : Refusal → String
  | .invalidTraceId value => traceIdMessage value
  | .maximumWithoutMinimum => "min_duration is required when specifying max_duration"
  | .maximumBelowMinimum => "max_duration should be >= min_duration"

end Refusal

namespace Cause

/-- The code of a cause. -/
def code : Cause → String
  | .missing => "missing"
  | .notInteger => "int_type"
  | .unreadableInteger => "int_parsing"
  | .oversizedInteger => "int_parsing_size"
  | .fractionalNumber => "int_from_float"
  | .infiniteNumber => "finite_number"
  | .notAbove _ => "greater_than"
  | .above _ => "less_than_equal"
  | .notText => "string_type"
  | .undecodableText => "string_unicode"
  | .notFlag => "bool_type"
  | .unreadableFlag => "bool_parsing"
  | .unknownKind => "enum"
  | .notDictionary => "dict_type"
  | .notSequence => "tuple_type"
  | .notRecord _ => "model_type"
  | .unknownBackend => "literal_error"
  | .refused _ => "value_error"

/-- The wording of a cause. -/
def message : Cause → String
  | .missing => "Field required"
  | .notInteger => "Input should be a valid integer"
  | .unreadableInteger => "Input should be a valid integer, unable to parse string as an integer"
  | .oversizedInteger => "Unable to parse input string as an integer, exceeded maximum size"
  | .fractionalNumber => "Input should be a valid integer, got a number with a fractional part"
  | .infiniteNumber => "Input should be a finite number"
  | .notAbove bound => "Input should be greater than " ++ String.ofList (Text.ofInt bound)
  | .above bound => "Input should be less than or equal to " ++ String.ofList (Text.ofInt bound)
  | .notText => "Input should be a valid string"
  | .undecodableText =>
      "Input should be a valid string, unable to parse raw data as a unicode string"
  | .notFlag => "Input should be a valid boolean"
  | .unreadableFlag => "Input should be a valid boolean, unable to interpret input"
  | .unknownKind => "Input should be 'CLIENT', 'SERVER', 'PRODUCER' or 'CONSUMER'"
  | .notDictionary => "Input should be a valid dictionary"
  | .notSequence => "Input should be a valid tuple"
  | .notRecord record => "Input should be a valid dictionary or instance of " ++ record
  | .unknownBackend => "Input should be 'elasticsearch' or 'opensearch'"
  | .refused reason => "Value error, " ++ reason.message

end Cause
end TraceArchive
