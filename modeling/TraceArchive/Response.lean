import TraceArchive.Span.Document

/-!
# Reading search responses

A response holds the buckets of its aggregations, each with a key, and the documents that were hit.
Reading one is all or nothing: a response in which any part has an unexpected shape is refused, with
the first fault in the order of the response.

* `Response.traceIds`, `Response.sortedKeys`: the keys of the buckets.
* `Response.spans`, `Response.dependencyLinks`: the documents.
-/

set_option autoImplicit false

namespace TraceArchive

/-- Why a part of a response cannot be read. -/
inductive ShapeFault where
  | wrongKind
  | notObject
  | missing (name : String)
  deriving DecidableEq, Repr

/-- Why a response is refused. -/
inductive ResponseError where
  | notObject (body : Json)
  | aggregations (fault : ShapeFault)
  | hits (fault : ShapeFault)
  | invalidTraceId (key : Json)
  | undecodable (record : String) (issues : List Issue)
  deriving Repr

/-- The wording of a fault. -/
def ShapeFault.text : ShapeFault → String
  | .wrongKind => "TypeError"
  | .notObject => "AttributeError"
  | .missing name => "KeyError(" ++ Text.quoted name ++ ")"

/-- The wording of an error. -/
def ResponseError.message : ResponseError → String
  | .notObject body => "Expected a JSON object, got " ++ body.kindWord
  | .aggregations fault => "Unexpected aggregation response: " ++ fault.text
  | .hits fault => "Unexpected search hits: " ++ fault.text
  | .invalidTraceId key =>
      "Aggregation returned an invalid trace ID: " ++ Refusal.traceIdMessage key
  | .undecodable record _ => "Could not decode " ++ record

namespace Json

/-- The member of an object that must be there. -/
def demand (name : String) : Json → Except ShapeFault Json
  | .obj members =>
      match Entries.get? name members with
      | some value => .ok value
      | none => .error (.missing name)
  | _ => .error .wrongKind

/-- The elements of a value that has any. -/
def elements (value : Json) : Except ShapeFault (List Json) :=
  match value.elements? with
  | some items => .ok items
  | none => .error .wrongKind

end Json

namespace Response

/-- What a search is asked for. -/
inductive Reading where
  | traceIds
  | sortedKeys
  | spans
  | dependencyLinks
  deriving DecidableEq, Repr

/-- The keys of the buckets of one aggregation. -/
def aggregationKeys (aggregation : Json) : Except ShapeFault (List String) := do
  let buckets ← aggregation.demand "buckets"
  let buckets ← buckets.elements
  buckets.mapM fun bucket => do
    let key ← bucket.demand "key"
    return key.plain

/-- The keys of the buckets of all aggregations, in the order of the response. -/
def keysOf (aggregations : Json) : Except ShapeFault (List String) :=
  match aggregations with
  | .obj members => (members.mapM fun member => aggregationKeys member.2).map List.flatten
  | _ => .error .notObject

/-- The keys of the buckets of a response. -/
def bucketKeys : Json → Except ResponseError (List String)
  | .obj members =>
      match Entries.get? "aggregations" members with
      | none => .ok []
      | some .null => .ok []
      | some aggregations => (keysOf aggregations).mapError .aggregations
  | body => .error (.notObject body)

/-- The trace IDs that the buckets stand for, without repeats. -/
def traceIds (body : Json) : Except ResponseError (List String) := do
  let keys ← bucketKeys body
  let keys := keys.eraseDups
  match keys.find? fun key => (TraceId.parse? key).isNone with
  | some key => .error (.invalidTraceId (.str key))
  | none => return keys

/-- The keys of all buckets, without repeats and sorted by code point. -/
def sortedKeys (body : Json) : Except ResponseError (List String) := do
  let keys ← bucketKeys body
  return keys.eraseDups.mergeSort fun a b => !decide (b < a)

/-- The list of hits of a response. -/
def hitList (body : Json) : Except ShapeFault (List Json) := do
  let hits ← body.demand "hits"
  let hits ← hits.demand "hits"
  hits.elements

/-- The document of one hit. -/
def readHit {α : Type}
    (record : String)
    (read : Json → Checked α)
    (hit : Json) :
    Except ResponseError α := do
  let source ← (hit.demand "_source").mapError .hits
  match read source with
  | .ok value => return value
  | .refused issues => .error (.undecodable record issues)

/-- The documents that were hit. -/
def documents {α : Type}
    (record : String)
    (read : Json → Checked α) :
    Json → Except ResponseError (List α)
  | .obj members => do
      let hits ← (hitList (.obj members)).mapError .hits
      hits.mapM (readHit record read)
  | body => .error (.notObject body)

/-- The spans that were hit. -/
def spans : Json → Except ResponseError (List Span) :=
  documents "Span" Span.read

/-- The dependency links that were hit. -/
def dependencyLinks : Json → Except ResponseError (List DependencyLink) :=
  documents "DependencyLink" DependencyLink.read

end Response
end TraceArchive
