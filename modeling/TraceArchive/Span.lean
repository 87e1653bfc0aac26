import TraceArchive.Entries
import TraceArchive.TraceId

/-!
# Spans

A span is one timed operation of a service within a trace.  Timestamps and durations are in
microseconds.
-/

set_option autoImplicit false

namespace TraceArchive

/-- The role that a service plays in a span. -/
inductive SpanKind where
  | client
  | server
  | producer
  | consumer
  deriving DecidableEq, Repr

/-- The network context of one side of a span. -/
structure Endpoint where
  serviceName : Option String
  ipv4 : Option String
  ipv6 : Option String
  port : Option Int
  deriving DecidableEq, Repr

/-- Something that happened at a point of time within a span. -/
structure Annotation where
  timestamp : Int
  value : String
  deriving DecidableEq, Repr

/-- One timed operation within a trace. -/
structure Span where
  traceId : TraceId
  id : String
  parentId : Option String
  name : Option String
  kind : Option SpanKind
  timestamp : Option Int
  duration : Option Int
  localEndpoint : Option Endpoint
  remoteEndpoint : Option Endpoint
  annotations : List Annotation
  tags : Entries String String
  debug : Option Bool
  shared : Option Bool
  deriving DecidableEq, Repr

/-- The spans of one trace. -/
abbrev Trace := List Span

/-- How often one service called another on a day. -/
structure DependencyLink where
  parent : String
  child : String
  callCount : Int
  errorCount : Int
  deriving DecidableEq, Repr

/-- The name of a kind in documents. -/
def SpanKind.name : SpanKind → String
  | .client => "CLIENT"
  | .server => "SERVER"
  | .producer => "PRODUCER"
  | .consumer => "CONSUMER"

namespace Span

/-- The service that recorded a span. -/
def localService (span : Span) : Option String :=
  span.localEndpoint.bind (·.serviceName)

/-- The service at the other side of a span. -/
def remoteService (span : Span) : Option String :=
  span.remoteEndpoint.bind (·.serviceName)

/-- The timestamp of a span, where zero counts as none. -/
def startedAt (span : Span) : Option Int :=
  span.timestamp.filter (· ≠ 0)

end Span
end TraceArchive
