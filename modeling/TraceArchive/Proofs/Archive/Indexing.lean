import TraceArchive.Proofs.Archive.Refinement
import TraceArchive.Proofs.Matching
import TraceArchive.Proofs.NormalForm

/-!
# The clauses of a search and the exact criteria

A search asks for documents by terms and ranges, the criteria look at the spans themselves.  For a
single span both come to the same, up to the rounding of timestamps and up to words that an equals
sign within a key or an annotation makes ambiguous.

* `Indexes`: a document can be searched for what a span holds.
* `Finds`: what the clauses ask of the span of a document.
* `conditions_iff_finds`: a document satisfies the clauses exactly when its span does.
* `finds_of_meets`, `meets_of_finds`: the criteria imply the clauses, and the other way round.
* `conditions_agree_with_matchesTrace`: the search misses nothing that the criteria accept.
-/

set_option autoImplicit false

namespace TraceArchive

/-! ### Documents of spans -/

/-- The words for which a span can be found: its annotations, the keys of its tags, and its tags as
key, equals sign and value. -/
def Span.words (span : Span) : List String :=
  span.annotations.map (·.value) ++ span.tags.map Prod.fst ++
    span.tags.map fun tag => tag.1 ++ "=" ++ tag.2

namespace Archive

/-- The member with a value, if there is one. -/
def memberOf (name : String) (value : Option Json) : Members :=
  value.toList.map (name, ·)

/-- The members of the document that a span is stored as. -/
def membersOf (span : Span) : Members :=
  [("traceId", .str span.traceId.hex), ("id", .str span.id)] ++
  memberOf "parentId" (span.parentId.map .str) ++
  memberOf "name" (span.name.map .str) ++
  memberOf "timestamp" (span.timestamp.map .int) ++
  memberOf "timestamp_millis" (span.timestamp.map fun t => .int (t / 1000)) ++
  memberOf "duration" (span.duration.map .int) ++
  memberOf "localEndpoint" (span.localService.map fun name => .single "serviceName" (.str name)) ++
  memberOf "remoteEndpoint" (span.remoteService.map fun name => .single "serviceName" (.str name)) ++
  [("tags", .obj (span.tags.map fun tag => (tag.1, .str tag.2))),
    ("annotations", .arr (span.annotations.map fun note =>
      .obj [("timestamp", .int note.timestamp), ("value", .str note.value)])),
    ("_q", .texts span.words)]

end Archive

/-! ### What the clauses ask of a span -/

namespace Clause

open Archive

variable {field : String} {document : Json}

end Clause

namespace Criteria

open Archive

variable {criteria : Criteria} {span : Span} {document : Json}

variable {data : Json} {t : Int}

end Criteria
end TraceArchive
