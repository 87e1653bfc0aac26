import TraceArchive.Partition.Cover
import TraceArchive.Proofs.Archive.Backend
import TraceArchive.Proofs.Validation

/-!
# Archives, and the search for traces without partitions

An archive holds documents in storage order.  Each is stored in the partition of its day: that of a
span of the timestamp of the span.  The traces that satisfy criteria can be found by looking at
every span document; this says what a search of the partitions has to give.

* `SpanDocument.traceId_eq`: the text of a document is that of the ID of its span.
* `found`, `selected`, `naiveTraces`: the search through all span documents.
-/

set_option autoImplicit false

namespace TraceArchive

/-- The document of a span.  It can be read, has a timestamp in milliseconds, and states the trace
ID by its text alone, in the form that the ID itself is written in. -/
structure SpanDocument where
  members : Members
  millis : Int
  span : Span
  hasMillis : Entries.get? Field.timestampMillis members = some (.int millis)
  reads : Span.read (.obj members) = .ok span
  noLow : Entries.get? "trace_id" members = none
  noHigh : Entries.get? "trace_id_high" members = none
  canonical : ∀ text id, Entries.get? Field.traceId members = some (.str text) →
    TraceId.parse? text = some id → id.hex = text

namespace SpanDocument

/-- The document as a value. -/
def body (document : SpanDocument) : Json :=
  .obj document.members

/-- The trace of a document. -/
def id (document : SpanDocument) : TraceId :=
  document.span.traceId

theorem traceId_eq (document : SpanDocument) :
    Entries.get? Field.traceId document.members = some (.str document.id.hex) ∧
      TraceId.parse? document.id.hex = some document.id := by
  obtain ⟨text, htext, hparse⟩ :=
    Span.traceId_of_read document.noLow document.noHigh document.reads
  have hhex : document.id.hex = text := document.canonical text _ htext hparse
  rw [hhex]
  exact ⟨htext, hparse⟩

end SpanDocument

/-- A document in its partition: that of a span, or any other of a day. -/
inductive StoredDocument (naming : Naming) where
  | span
      (document : SpanDocument)
      (partition : String)
      (stored : naming.ofMillis DocType.span document.millis = .ok partition)
  | dependency
      (body : Json)
      (day : Int)
      (partition : String)
      (stored : naming.ofMillis DocType.dependency day = .ok partition)

namespace StoredDocument

variable {naming : Naming}

/-- The partition of a document. -/
def partition : StoredDocument naming → String
  | span _ partition _ => partition
  | dependency _ _ partition _ => partition

/-- A document as a value. -/
def body : StoredDocument naming → Json
  | span document _ _ => document.body
  | dependency body _ _ _ => body

/-- The span document that a document is, if it is one. -/
def span? : StoredDocument naming → Option SpanDocument
  | span document _ _ => some document
  | dependency _ _ _ _ => none

end StoredDocument

/-- Documents in storage order. -/
abbrev Archive (naming : Naming) := List (StoredDocument naming)

/-- A document satisfies a condition on one field. -/
def Clause.test (document : Json) : Clause → Except Failure Bool
  | .range field least most =>
      (Archive.valuesAt field document).anyM (Archive.isWithin (some least) most)
  | .term field value => .ok ((Archive.valuesAt field document).any (Archive.same value))

/-- The conditions that criteria put on a span. -/
def Criteria.conditions (criteria : Criteria) : List Clause :=
  criteria.clauses (windowStart criteria.endTs criteria.lookback) criteria.endTs

namespace Archive

variable {naming : Naming}

/-- The documents as the backend has them. -/
def stored (archive : Archive naming) : List (String × Json) :=
  archive.map fun document => (document.partition, document.body)

/-- All span documents. -/
def spans (archive : Archive naming) : List SpanDocument :=
  archive.filterMap StoredDocument.span?

@[simp] theorem stored_cons_span
    (document : SpanDocument) (partition : String)
    (h : naming.ofMillis DocType.span document.millis = .ok partition)
    (rest : Archive naming) :
    stored (.span document partition h :: rest) = (partition, document.body) :: stored rest := rfl

@[simp] theorem stored_cons_dependency
    (body : Json) (day : Int) (partition : String)
    (h : naming.ofMillis DocType.dependency day = .ok partition)
    (rest : Archive naming) :
    stored (.dependency body day partition h :: rest) = (partition, body) :: stored rest := rfl

@[simp] theorem spans_cons_span
    (document : SpanDocument) (partition : String)
    (h : naming.ofMillis DocType.span document.millis = .ok partition)
    (rest : Archive naming) :
    spans (.span document partition h :: rest) = document :: spans rest := rfl

@[simp] theorem spans_cons_dependency
    (body : Json) (day : Int) (partition : String)
    (h : naming.ofMillis DocType.dependency day = .ok partition)
    (rest : Archive naming) :
    spans (.dependency body day partition h :: rest) = spans rest := rfl

/-- The spans of a trace, in storage order. -/
def traceOf (archive : Archive naming) (id : TraceId) : Trace :=
  (archive.spans.filter fun document => document.id = id).map SpanDocument.span

/-- The span documents that satisfy every condition of criteria, whatever their partition. -/
def found (archive : Archive naming) (criteria : Criteria) : Except Failure (List SpanDocument) :=
  archive.spans.filterM fun document => criteria.conditions.allM (Clause.test document.body)

/-- The least timestamp among the documents of a trace. -/
def earliest (documents : List SpanDocument) (id : TraceId) : Int :=
  (((documents.filter fun document => document.id = id).map SpanDocument.millis).min?).getD 0

/-- The traces of documents by their least timestamps, the latest first; those of one timestamp in
the order in which they are first seen. -/
def latestFirst (documents : List SpanDocument) : List TraceId :=
  ((documents.map SpanDocument.id).eraseDups).mergeSort fun a b =>
    decide (earliest documents b ≤ earliest documents a)

/-- The traces that are selected: the latest, as many as asked for. -/
def selected (criteria : Criteria) (documents : List SpanDocument) : List TraceId :=
  (latestFirst documents).take criteria.limit.toNat

/-- The traces that satisfy criteria, from all span documents.  Those whose ID has a high half have
to satisfy the criteria exactly. -/
def naiveTraces (archive : Archive naming) (criteria : Criteria) : Except Failure (List Trace) := do
  let documents ← archive.found criteria
  let exactly := (selected criteria documents).filter fun id =>
    id.high = 0 || criteria.matchesTrace (archive.traceOf id)
  return exactly.map archive.traceOf

end Archive
end TraceArchive
