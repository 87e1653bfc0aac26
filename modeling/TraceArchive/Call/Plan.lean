import TraceArchive.Call.Failure
import TraceArchive.Call.Value
import TraceArchive.Search.Criteria

/-!
# Plans of calls

A plan says what a call does, without its state.  Plans are trees: a mapped call has one stage, a
flat-mapped call chooses its second stage when the first has its value.  Cloning a call starts over
from its plan.
-/

set_option autoImplicit false

namespace TraceArchive

/-- A leaf that waits at a gate, if it has one, and then yields a value or fails. -/
structure Recording where
  value : Value
  failure : Option Failure
  gate : Option String
  ignoresCancel : Bool

/-- A search whose response is read in one of four ways. -/
structure Search where
  request : SearchRequest
  reading : Response.Reading
  maxHits : Json

/-- A search for traces in two phases: first their IDs, then all of their spans. -/
structure TraceSearch where
  criteria : Criteria
  aggregation : SearchRequest
  spanIndices : List String
  strict : Bool
  maxHits : Json

/-- What a mapper does to a value: it cancels calls, and then yields a result or fails. -/
structure Mapping (α : Type) where
  cancels : List String
  result : Except Failure α

/-- The second stage of a flat-mapped call: a new call, a known one, or a clone of a known one. -/
inductive Stage (α : Type) where
  | fresh (plan : α)
  | known (label : String)
  | cloneOf (label : String)

/-- What a call does. -/
inductive Plan where
  | constant (value : Value)
  | recording (leaf : Recording)
  | mapped (first : Plan) (mapper : Value → Mapping Value)
  | flatMapped (first : Plan) (mapper : Value → Mapping (Stage Plan))
  | search (search : Search)
  | traceSearch (search : TraceSearch)

namespace Plan

/-- The plan that yields an empty list. -/
def emptyList : Plan := .constant (.list [])

/-- The kind of the call that a plan is for. -/
def kind : Plan → CallKind
  | .constant _ => .constant
  | .recording _ => .recording
  | .mapped _ _ => .mapped
  | .flatMapped _ _ => .flatMapped
  | .search _ => .search
  | .traceSearch _ => .traceSearch

/-- Canceling the call has no effect. -/
def ignoresCancel : Plan → Bool
  | .recording leaf => leaf.ignoresCancel
  | _ => false

end Plan

namespace TraceSearch

/-- The search of the first phase. -/
def listing (search : TraceSearch) : Search :=
  ⟨search.aggregation, .traceIds, search.maxHits⟩

/-- The search of the second phase, for the spans of the listed traces. -/
def fetch (search : TraceSearch) (ids : List String) : Search :=
  ⟨.build search.spanIndices [.terms Field.traceId (ids.map .str)], .spans, search.maxHits⟩

end TraceSearch
end TraceArchive
