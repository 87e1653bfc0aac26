import TraceArchive.Criteria
import TraceArchive.Search.Fields
import TraceArchive.Search.Request
import TraceArchive.Text.Lower

/-!
# Searching for the traces that satisfy criteria

The clauses ask for spans, not for traces: they find a trace when a single span satisfies them all.
Buckets of trace IDs are ordered by the earliest of the spans that were found, latest first.
-/

set_option autoImplicit false

namespace TraceArchive

/-- No span was stored before March 2016, in milliseconds. -/
def earliestMillis : Int := 1456790400000

/-- The most buckets that a backend gives. -/
def maxBuckets : Int := 65536

/-- The start of a window that ends at an instant, not before the first stored span. -/
def windowStart (endTs lookback : Int) : Int :=
  max (endTs - lookback) earliestMillis

namespace Criteria

/-- The clauses that a span has to satisfy. -/
def clauses (criteria : Criteria) (begin last : Int) : List Clause :=
  let service := criteria.serviceName.toList.map fun name =>
    Clause.equals Field.localService (Text.lower name)
  let name := criteria.spanName.toList.map (Clause.equals Field.spanName)
  let annotations := criteria.annotationQuery.map fun entry =>
    Clause.equals Field.annotationQuery (AnnotationQuery.word entry)
  let duration := criteria.minDuration.toList.map fun least =>
    Clause.between Field.duration least criteria.maxDuration
  Clause.between Field.timestampMillis begin (some last) ::
    (service ++ name ++ annotations ++ duration)

end Criteria

/-- The trace IDs of the spans found, by the earliest span of each, latest first. -/
def traceIdAggregation (limit : Int) : Aggregation :=
  ((Aggregation.terms Field.traceId limit).within (.least Field.timestampMillis)).orderedBy
    Field.timestampMillis "desc"

end TraceArchive
