import TraceArchive.Criteria.Match
import TraceArchive.Response

/-!
# From spans to traces

The spans that were fetched are grouped by trace, the traces are put in the order in which their IDs
were listed, and those with a high half are checked against the criteria once more, since the search
for them is imprecise.
-/

set_option autoImplicit false

namespace TraceArchive

/-- Why traces cannot be put in order or checked. -/
inductive TraceError where
  | emptyTrace
  | invalidTraceId (value : Json)
  deriving Repr

/-- The wording of an error. -/
def TraceError.message : TraceError → String
  | .emptyTrace => "list index out of range"
  | .invalidTraceId value => (ResponseError.invalidTraceId value).message

namespace Trace

/-- The groups with a span added to the one with its key, or as a new group at the end. -/
def addSpan
    (strict : Bool)
    (groups : Entries TraceId Trace)
    (span : Span) :
    Entries TraceId Trace :=
  let key := span.traceId.key strict
  Entries.put key ((Entries.get? key groups).getD [] ++ [span]) groups

/-- The traces of the spans, in the order in which their keys are first seen. -/
def group (strict : Bool) (spans : List Span) : List Trace :=
  (spans.foldl (addSpan strict) []).map Prod.snd

/-- The trace ID of a value, which has to be its hexadecimal text. -/
def readId (value : Json) : Except TraceError TraceId :=
  match value.text?.bind TraceId.parse? with
  | some id => .ok id
  | none => .error (.invalidTraceId value)

/-- The positions at which the keys of trace IDs are first listed. -/
def ranks (strict : Bool) : Nat → Entries TraceId Nat → List TraceId → Entries TraceId Nat
  | _, found, [] => found
  | position, found, id :: rest =>
      let key := id.key strict
      let found := match Entries.get? key found with
        | some _ => found
        | none => Entries.put key position found
      ranks strict (position + 1) found rest

/-- The position of a trace; an ID that is not listed counts as at the number of listed keys. -/
def position
    (strict : Bool)
    (ranks : Entries TraceId Nat)
    (trace : Trace) :
    Except TraceError Nat :=
  match trace with
  | [] => .error .emptyTrace
  | span :: _ => .ok ((Entries.get? (span.traceId.key strict) ranks).getD ranks.length)

/-- The traces in the order in which their IDs are listed; traces of one position keep their
order. -/
def sortByIds
    (strict : Bool)
    (ids : List Json)
    (traces : List Trace) :
    Except TraceError (List Trace) := do
  let listed ← ids.mapM readId
  let ranks := ranks strict 0 [] listed
  let placed ← traces.mapM fun trace => do
    let place ← position strict ranks trace
    return (place, trace)
  return (placed.mergeSort fun a b => a.1 ≤ b.1).map Prod.snd

/-- A trace is kept when its ID has no high half or when its spans satisfy the criteria. -/
def isKept (criteria : Criteria) : Trace → Except TraceError Bool
  | [] => .error .emptyTrace
  | span :: rest => .ok (span.traceId.high = 0 || criteria.matchesTrace (span :: rest))

/-- The traces that are kept. -/
def verify (criteria : Criteria) (traces : List Trace) : Except TraceError (List Trace) :=
  traces.filterM (isKept criteria)

/-- The traces that a search answers with: grouped, in the order of the listed IDs, and verified. -/
def assemble
    (criteria : Criteria)
    (strict : Bool)
    (ids : List String)
    (spans : List Span) :
    Except TraceError (List Trace) := do
  let sorted ← sortByIds strict (ids.map .str) (group strict spans)
  verify criteria sorted

end Trace
end TraceArchive
