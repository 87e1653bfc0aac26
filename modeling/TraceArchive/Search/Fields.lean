/-!
# Fields of stored documents

The names of the document types and of the fields that searches refer to.
-/

set_option autoImplicit false

namespace TraceArchive

namespace DocType

/-- The type of span documents. -/
def span : String := "span"

/-- The type of dependency documents. -/
def dependency : String := "dependency"

end DocType

namespace Field

/-- The trace ID of a span. -/
def traceId : String := "traceId"

/-- The timestamp of a span in milliseconds. -/
def timestampMillis : String := "timestamp_millis"

/-- The service that recorded a span. -/
def localService : String := "localEndpoint.serviceName"

/-- The service at the other side of a span. -/
def remoteService : String := "remoteEndpoint.serviceName"

/-- The name of a span. -/
def spanName : String := "name"

/-- The duration of a span. -/
def duration : String := "duration"

/-- Every annotation value and tag key of a span, and every tag as key, equals sign and value. -/
def annotationQuery : String := "_q"

end Field
end TraceArchive
