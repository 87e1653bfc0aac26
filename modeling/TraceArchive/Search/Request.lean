import TraceArchive.Search.Aggregation
import TraceArchive.Search.Query

/-!
# Search requests

A request names the indices to search; it may have a query and aggregations.  A request with
aggregations asks for no hits.
-/

set_option autoImplicit false

namespace TraceArchive

/-- A search over named indices. -/
structure SearchRequest where
  indices : List String
  query : Option Query
  aggregations : List Aggregation
  deriving Repr, Inhabited

/-- One step in building a request. -/
inductive SearchRequest.Part where
  | filters (clauses : List Clause)
  | term (field : String) (value : Json)
  | terms (field : String) (values : List Json)
  | aggregation (aggregation : Aggregation)
  deriving Repr

namespace SearchRequest

/-- A search for every document of the indices. -/
def ofIndices (indices : List String) : SearchRequest :=
  ⟨indices, none, []⟩

/-- A request with a part added; a query takes the place of the one before. -/
def add (request : SearchRequest) : Part → SearchRequest
  | .filters clauses => { request with query := some (.every clauses) }
  | .term field value => { request with query := some (.term field value) }
  | .terms field values => { request with query := some (.terms field values) }
  | .aggregation aggregation =>
      { request with aggregations := request.aggregations ++ [aggregation] }

/-- The request that results from adding parts one after the other. -/
def build (indices : List String) (parts : List Part) : SearchRequest :=
  parts.foldl add (ofIndices indices)

/-- The indices as the one text that a search is sent to. -/
def target (request : SearchRequest) : String :=
  ",".intercalate request.indices

/-- The body of a request in the query language of the backend. -/
def toJson (request : SearchRequest) (maxHits : Json) : Json :=
  let size := if request.aggregations.isEmpty then maxHits else .int 0
  let query := match request.query with
    | some q => [("query", q.toJson)]
    | none => []
  let aggregations := match request.aggregations with
    | [] => []
    | all => [("aggs", .obj (Aggregation.membersOf all []))]
  .obj (("size", size) :: query ++ aggregations)

/-- A request described in one line. -/
def describe (request : SearchRequest) : String :=
  let query := match request.query with
    | some q => q.toJson
    | none => .null
  "SearchRequest(index=" ++ Text.quoted request.target ++ ", query=" ++ query.literal ++
    ", aggregations=" ++ (Json.texts (request.aggregations.map Aggregation.field)).literal ++ ")"

/-- How a backend treats the indices of a search: missing and closed ones count as empty. -/
def indexOptions : Json :=
  .obj [
    ("ignore_unavailable", .bool true),
    ("allow_no_indices", .bool true),
    ("expand_wildcards", .str "open")]

end SearchRequest
end TraceArchive
