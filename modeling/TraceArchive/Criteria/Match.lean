import TraceArchive.Criteria

/-!
# Matching the spans of a trace

A trace is matched span by span.  What the spans seen so far have not witnessed yet is kept as a
`Pending` value; a trace matches when it lies in the time window and nothing is pending at its end.
Different spans may witness different criteria.

* `traceTimestamp`: the timestamp of the root, else the earliest one.
* `Pending.see`: what a span of the requested service leaves pending.
-/

set_option autoImplicit false

namespace TraceArchive
namespace Criteria

/-- The timestamp of the first root among the spans, else the least of `earliest` and their
timestamps; zero counts as no timestamp. -/
def timestampFrom (earliest : Int) : List Span → Int
  | [] => earliest
  | span :: rest =>
      match span.startedAt with
      | none => timestampFrom earliest rest
      | some t =>
          if span.parentId.isNone then t
          else timestampFrom (if earliest = 0 ∨ t < earliest then t else earliest) rest

/-- The timestamp of a trace, zero if it has none. -/
def traceTimestamp (spans : List Span) : Int :=
  timestampFrom 0 spans

/-- A timestamp in microseconds lies in the window in milliseconds. -/
def inWindow (criteria : Criteria) (timestamp : Int) : Bool :=
  timestamp ≠ 0 &&
    (criteria.endTs - criteria.lookback) * 1000 ≤ timestamp && timestamp ≤ criteria.endTs * 1000

/-- The duration of a span lies within the bounds; a span without one has duration zero. -/
def durationFits (criteria : Criteria) (span : Span) : Bool :=
  let duration := span.duration.getD 0
  match criteria.minDuration, criteria.maxDuration with
  | some least, some most => least ≤ duration && duration ≤ most
  | some least, none => least ≤ duration
  | none, _ => false

/-- What no span has witnessed yet. -/
structure Pending where
  service : Bool
  spanName : Option String
  annotations : AnnotationQuery
  duration : Bool
  deriving DecidableEq, Repr

namespace Pending

/-- All that the criteria ask for. -/
def start (criteria : Criteria) : Pending where
  service := criteria.serviceName.isSome
  spanName := criteria.spanName
  annotations := criteria.annotationQuery
  duration := criteria.minDuration.isSome || criteria.maxDuration.isSome

/-- The query entries that an annotation leaves: it witnesses the presence of its value. -/
def seeAnnotation (query : AnnotationQuery) (note : Annotation) : AnnotationQuery :=
  if Entries.get? note.value query = some "" then Entries.erase note.value query
  else query

/-- The query entries that a tag leaves: it witnesses the presence of its key and its value. -/
def seeTag (query : AnnotationQuery) (tag : String × String) : AnnotationQuery :=
  match Entries.get? tag.1 query with
  | none => query
  | some expected =>
      if expected = "" ∨ expected = tag.2 then Entries.erase tag.1 query else query

/-- What a span of the requested service leaves pending. -/
def see (criteria : Criteria) (pending : Pending) (span : Span) : Pending where
  service := false
  spanName := if pending.spanName = span.name then none else pending.spanName
  annotations := span.tags.foldl seeTag (span.annotations.foldl seeAnnotation pending.annotations)
  duration := pending.duration && !criteria.durationFits span

/-- Nothing is left to witness. -/
def isDone (pending : Pending) : Bool :=
  !pending.service && pending.spanName.isNone && pending.annotations.isEmpty && !pending.duration

end Pending

/-- A span belongs to the requested service; without one every span does. -/
def concerns (criteria : Criteria) (span : Span) : Bool :=
  match criteria.serviceName with
  | none => true
  | some service => span.localService = some service

/-- The spans of a trace satisfy the criteria. -/
def matchesTrace (criteria : Criteria) (spans : List Span) : Bool :=
  criteria.inWindow (traceTimestamp spans) &&
    ((spans.filter criteria.concerns).foldl (Pending.see criteria) (Pending.start criteria)).isDone

end Criteria
end TraceArchive
