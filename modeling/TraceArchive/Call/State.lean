/-!
# States of calls

A call is new until it is executed or canceled, and then ends in one of three states.  A trace
search also goes through phases of its own.
-/

set_option autoImplicit false

namespace TraceArchive

/-- The state of a call. -/
inductive CallState where
  | new
  | executing
  | done
  | failed
  | canceled
  deriving DecidableEq, Repr, Inhabited

/-- The phase of a trace search. -/
inductive SearchPhase where
  | built
  | aggregating
  | fetching
  | grouping
  | done
  | failed
  deriving DecidableEq, Repr, Inhabited

/-- The word for a state. -/
def CallState.name : CallState → String
  | .new => "new"
  | .executing => "executing"
  | .done => "done"
  | .failed => "failed"
  | .canceled => "canceled"

/-- The word for a phase. -/
def SearchPhase.name : SearchPhase → String
  | .built => "built"
  | .aggregating => "aggregating"
  | .fetching => "fetching"
  | .grouping => "grouping"
  | .done => "done"
  | .failed => "failed"

/-- A call in this state is never executed again and keeps its state. -/
def CallState.isFinal : CallState → Bool
  | .done => true
  | .failed => true
  | .canceled => true
  | _ => false

/-- The kinds of calls. -/
inductive CallKind where
  | constant
  | recording
  | mapped
  | flatMapped
  | search
  | traceSearch
  deriving DecidableEq, Repr, Inhabited

/-- The name of a kind. -/
def CallKind.name : CallKind → String
  | .constant => "Constant"
  | .recording => "Recording"
  | .mapped => "MappedCall"
  | .flatMapped => "FlatMappedCall"
  | .search => "SearchCall"
  | .traceSearch => "TraceSearchCall"

end TraceArchive
