import TraceArchive.Call.Plan
import TraceArchive.Partition.Cover
import TraceArchive.Store.SpanStore

/-!
# Lookups of a span store

Every lookup gives a plan that is still to be executed.  A lookup whose time window holds no
partition gives an empty list without a search, and may say so in a line of the log.
-/

set_option autoImplicit false

namespace TraceArchive

/-- A plan and what was logged while it was made. -/
structure Lookup where
  plan : Plan
  log : List String

namespace Lookup

/-- The number of milliseconds as text. -/
def millis (n : Int) : String :=
  String.ofList (Text.ofInt n)

/-- The lookup that gives an empty list. -/
def nothing (log : List String) : Lookup :=
  ⟨.emptyList, log⟩

/-- The line about a window without partitions. -/
def emptyWindow (docType : String) (begin last : Int) : String :=
  "No " ++ docType ++ " indices between " ++ millis begin ++ " and " ++ millis last

end Lookup

/-- Why a lookup cannot be made. -/
inductive LookupError where
  | date (error : DateError)
  | missingLookback
  deriving DecidableEq, Repr

/-- An instant as it goes to the backend. -/
def Millis.toJson : Millis → Json
  | .whole count => .int count
  | .real count => .float count

namespace SpanStore

/-- A search of the store. -/
def search (store : SpanStore) (request : SearchRequest) (reading : Response.Reading) : Plan :=
  .search ⟨request, reading, store.maxHits⟩

/-- The names and patterns of the partitions of the days between two instants. -/
def partitions
    (store : SpanStore)
    (docType : String)
    (begin last : Millis) :
    Except LookupError (List String) :=
  (store.naming.ofInstants docType begin last).mapError .date

/-- The instant from which on names are looked up. -/
def namesBegin (store : SpanStore) (now : Int) : Except LookupError Millis :=
  match store.namesLookback with
  | some lookback => (lookback.before now).mapError .date
  | none => .error .missingLookback

/-- The pattern of all partitions of spans. -/
def allSpans (store : SpanStore) : List String :=
  [store.naming.allPattern DocType.span]

/-- The traces that satisfy criteria, the most recent first. -/
def traces (store : SpanStore) (criteria : Criteria) : Except LookupError Lookup := do
  let last := criteria.endTs
  let begin := windowStart last criteria.lookback
  let indices ← store.partitions DocType.span (.whole begin) (.whole last)
  if indices.isEmpty then return .nothing [Lookup.emptyWindow DocType.span begin last]
  else
    let request := SearchRequest.build indices
      [.filters (criteria.clauses begin last), .aggregation (traceIdAggregation criteria.limit)]
    let search : TraceSearch :=
      ⟨criteria, request, store.allSpans, store.strictTraceId, store.maxHits⟩
    return ⟨.traceSearch search, []⟩

/-- The spans of one trace, in storage order. -/
def traceById (store : SpanStore) (id : TraceId) : Lookup :=
  let hex := TraceId.hex (id.key store.strictTraceId)
  ⟨store.search (.build store.allSpans [.term Field.traceId (.str hex)]) .spans, []⟩

/-- The names in documents whose timestamp lies in the window that ends now: the values of some
fields of the documents that satisfy clauses. -/
def names
    (store : SpanStore)
    (now : Int)
    (clauses : List Clause)
    (fields : List String) :
    Except LookupError Lookup := do
  let begin ← store.namesBegin now
  let indices ← store.partitions DocType.span begin (.whole now)
  if indices.isEmpty then return .nothing []
  else
    let window := Clause.range Field.timestampMillis begin.toJson (some (.int now))
    let aggregations := fields.map fun field =>
      SearchRequest.Part.aggregation (.terms field maxBuckets)
    let request := SearchRequest.build indices (.filters (window :: clauses) :: aggregations)
    return ⟨store.search request .sortedKeys, []⟩

/-- The names of all services, on either side of a span. -/
def serviceNames (store : SpanStore) (now : Int) : Except LookupError Lookup :=
  store.names now [] [Field.localService, Field.remoteService]

/-- The names of the spans that a service recorded; without a service there are none. -/
def spanNames
    (store : SpanStore)
    (now : Int)
    (service : Option String) :
    Except LookupError Lookup :=
  match service.filter (· ≠ "") with
  | none => .ok (.nothing [])
  | some name =>
      store.names now [.equals Field.localService (Text.lower name)] [Field.spanName]

/-- The dependency links of every day of a window. -/
def dependencies (store : SpanStore) (endTs lookback : Int) : Except LookupError Lookup := do
  let begin := windowStart endTs lookback
  let indices ← store.partitions DocType.dependency (.whole begin) (.whole endTs)
  if indices.isEmpty then return .nothing [Lookup.emptyWindow DocType.dependency begin endTs]
  else return ⟨store.search (.ofIndices indices) .dependencyLinks, []⟩

end SpanStore
end TraceArchive
