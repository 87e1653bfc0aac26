import TraceArchive.Call.State
import TraceArchive.Trace.Group

/-!
# How calls fail

A call fails on its own account, is canceled, or is interrupted because its task was canceled.
-/

set_option autoImplicit false

namespace TraceArchive

/-- Why a call has no value. -/
inductive Failure where
  | alreadyExecuted (kind : CallKind)
  | canceledBefore (kind : CallKind)
  | canceledDuring (kind : CallKind)
  | canceledTask (kind : CallKind)
  | canceledBeforeNext
  | canceledInFlight (target : String)
  | canceledBeforePhase (phase : SearchPhase)
  | interrupted
  | badResponse (error : ResponseError)
  | badTraces (error : TraceError)
  | noReply
  | raised (kind : String) (message : String)
  | mapperFailed
  | callbackFailed
  | notAList
  | unknownCall (label : String)
  | endless
  deriving Repr

/-- The wording of a failure, where it has one. -/
def Failure.message? : Failure → Option String
  | .alreadyExecuted kind => some (kind.name ++ " already executed; clone it to run again")
  | .canceledBefore kind => some (kind.name ++ " was canceled before execution")
  | .canceledDuring kind => some (kind.name ++ " was canceled during execution")
  | .canceledTask kind => some (kind.name ++ " task was canceled")
  | .canceledBeforeNext => some "FlatMappedCall was canceled before issuing its next call"
  | .canceledInFlight target => some ("Search of " ++ target ++ " was canceled while in flight")
  | .canceledBeforePhase phase =>
      some ("Trace search was canceled before " ++ phase.name ++ " started")
  | .interrupted => none
  | .badResponse error => some error.message
  | .badTraces error => some error.message
  | .noReply => some "no response left"
  | .raised _ message => some message
  | .mapperFailed => some "mapper failed"
  | .callbackFailed => some "callback failed"
  | .notAList => none
  | .unknownCall label => some label
  | .endless => some "maximum recursion depth exceeded"

end TraceArchive
