import TraceArchive.Document.Member
import TraceArchive.Span

/-!
# Span and dependency documents

A span document holds the trace ID as one hexadecimal text; its halves may also be members of
their own, which then win.  Service names are lower-cased and tag values become texts.  Members
that are not known are passed over.
-/

set_option autoImplicit false

namespace TraceArchive

open Document

/-- Reads the role of a service in a span. -/
def SpanKind.read : Json → Checked SpanKind
  | .str "CLIENT" => .ok .client
  | .str "SERVER" => .ok .server
  | .str "PRODUCER" => .ok .producer
  | .str "CONSUMER" => .ok .consumer
  | _ => .fail .unknownKind

/-- Reads an endpoint from its members. -/
def Endpoint.ofMembers (members : Members) : Checked Endpoint :=
  Endpoint.mk
    <$> optional ["serviceName", "service_name"] none loweredName members
    <*> optional ["ipv4"] none (nullable text) members
    <*> optional ["ipv6"] none (nullable text) members
    <*> optional ["port"] none (nullable integer) members

/-- Reads an endpoint. -/
def Endpoint.read : Json → Checked Endpoint :=
  record "Endpoint" ofMembers

/-- Reads an annotation from its members. -/
def Annotation.ofMembers (members : Members) : Checked Annotation :=
  Annotation.mk
    <$> required ["timestamp"] integer members
    <*> required ["value"] text members

/-- Reads an annotation. -/
def Annotation.read : Json → Checked Annotation :=
  record "Annotation" ofMembers

/-- The members with the halves of the trace ID added where the document has only its text. -/
def Span.splitTraceId (members : Members) : Checked Members :=
  match Entries.get? "traceId" members with
  | none => .ok members
  | some value =>
      let parsed := match value with
        | .str hex => TraceId.parse? hex
        | _ => none
      match parsed with
      | none => .fail (.refused (.invalidTraceId value))
      | some id =>
          let add (name : String) (half : Int) (into : Members) : Members :=
            match Entries.get? name into with
            | some _ => into
            | none => into ++ [(name, .int half)]
          .ok (add "trace_id" id.low (add "trace_id_high" id.high members))

/-- Reads the tags of a span; a value that is no text becomes one. -/
def Span.readTags : Json → Checked (Entries String String)
  | .obj members => .ok (members.map fun (key, value) => (key, value.plain))
  | _ => .fail .notDictionary

/-- Reads a span from its members. -/
def Span.ofMembers (members : Members) : Checked Span :=
  (splitTraceId members).andThen fun members =>
    (fun high low => Span.mk ⟨high, low⟩)
      <$> optional ["trace_id_high"] 0 integer members
      <*> required ["trace_id"] integer members
      <*> required ["id"] text members
      <*> optional ["parentId", "parent_id"] none (nullable text) members
      <*> optional ["name"] none (nullable text) members
      <*> optional ["kind"] none (nullable SpanKind.read) members
      <*> optional ["timestamp"] none (nullable integer) members
      <*> optional ["duration"] none (nullable integer) members
      <*> optional ["localEndpoint", "local_endpoint"] none (nullable Endpoint.read) members
      <*> optional ["remoteEndpoint", "remote_endpoint"] none (nullable Endpoint.read) members
      <*> optional ["annotations"] [] (sequence Annotation.read) members
      <*> optional ["tags"] [] readTags members
      <*> optional ["debug"] none (nullable flag) members
      <*> optional ["shared"] none (nullable flag) members

/-- Reads a span document. -/
def Span.read : Json → Checked Span :=
  record "Span" ofMembers

/-- Reads a dependency link from its members. -/
def DependencyLink.ofMembers (members : Members) : Checked DependencyLink :=
  DependencyLink.mk
    <$> required ["parent"] text members
    <*> required ["child"] text members
    <*> optional ["callCount", "call_count"] 0 integer members
    <*> optional ["errorCount", "error_count"] 0 integer members

/-- Reads a dependency document. -/
def DependencyLink.read : Json → Checked DependencyLink :=
  record "DependencyLink" ofMembers

end TraceArchive
