import TraceArchive.Call.Plan

/-!
# Collections of calls

Calls are numbered as they are made.  A call has a state, a flag that it was canceled, and the
numbers of the calls that it delegates to.

* `add`: the calls of a plan, all of them new.
* `clone`: a new call made from what a call was made from.
* `cancel`: the flag of a call and of every call it delegates to, directly or through others.
* `cancelEnds`: canceling a call comes to an end.
-/

set_option autoImplicit false

namespace TraceArchive

/-- The number of a call. -/
abbrev CallId := Nat

/-- A call: its plan and what has become of it. -/
structure Call where
  plan : Plan
  state : CallState
  canceled : Bool
  runs : Nat
  phase : SearchPhase
  first : Option CallId
  next : Option CallId

instance : Inhabited Call :=
  ⟨.emptyList, .new, false, 0, .built, none, none⟩

/-- A new call for a plan, whose first stage is a known call. -/
def Call.fresh (plan : Plan) (first : Option CallId) : Call :=
  ⟨plan, .new, false, 0, .built, first, none⟩

/-- The calls that canceling a call is passed on to. -/
def Call.delegates (call : Call) : List CallId :=
  if call.plan.ignoresCancel then [] else call.first.toList ++ call.next.toList

/-- The call after it was told to cancel. -/
def Call.markCanceled (call : Call) : Call :=
  if call.plan.ignoresCancel then call else { call with canceled := true }

/-- The calls that canceling has reached, the latest first, and whether it has come to an end. -/
structure Descent where
  reached : List CallId
  ends : Bool
  deriving DecidableEq, Repr

/-- All calls made so far. -/
abbrev Calls := Array Call

namespace Calls

/-- The call with a number. -/
def get (calls : Calls) (id : CallId) : Call :=
  calls.getD id default

/-- The calls with a new one for a plan, whose first stage is a known call. -/
def push (calls : Calls) (plan : Plan) (first : Option CallId) : Calls × CallId :=
  (Array.push calls (Call.fresh plan first), calls.size)

/-- The calls with new ones for a whole plan; the number is that of the outermost. -/
def add (calls : Calls) : Plan → Calls × CallId
  | .mapped first mapper =>
      let inner := add calls first
      push inner.1 (.mapped first mapper) (some inner.2)
  | .flatMapped first mapper =>
      let inner := add calls first
      push inner.1 (.flatMapped first mapper) (some inner.2)
  | plan => push calls plan none

/-- The calls with a clone of a call that is composed of at most `depth` others.  It is made from
what the call was made from: its mapper, if it has one, and a clone of the call that the mapper is
for. -/
def cloneWithin (calls : Calls) : Nat → CallId → Calls × CallId
  | 0, id => push calls (calls.get id).plan none
  | depth + 1, id =>
      let call := calls.get id
      match call.plan, call.first with
      | .mapped _ mapper, some first =>
          let inner := cloneWithin calls depth first
          push inner.1 (.mapped (inner.1.get inner.2).plan mapper) (some inner.2)
      | .flatMapped _ mapper, some first =>
          let inner := cloneWithin calls depth first
          push inner.1 (.flatMapped (inner.1.get inner.2).plan mapper) (some inner.2)
      | plan, _ => push calls plan none

/-- The calls with a clone of a call, which is composed of calls that were made before it. -/
def clone (calls : Calls) (id : CallId) : Calls × CallId :=
  cloneWithin calls id id

/-- Canceling is passed on from a call, depth first and at most `depth` calls down.  It does not end
when it would go further down, and then reaches nothing more. -/
def descend (calls : Calls) : Nat → Descent → CallId → Descent
  | 0, descent, _ => { descent with ends := false }
  | depth + 1, descent, id =>
      if descent.ends then
        (calls.get id).delegates.foldl (descend calls depth)
          { descent with reached := id :: descent.reached }
      else descent

/-- How far canceling a call reaches.  Whoever goes down more calls than there are has come to one
of them twice, and never ends. -/
def descent (calls : Calls) (id : CallId) : Descent :=
  descend calls calls.size ⟨[], true⟩ id

/-- The calls after one of them was canceled. -/
def cancel (calls : Calls) (id : CallId) : Calls :=
  (descent calls id).reached.foldl
    (fun calls id => Array.modify calls id Call.markCanceled) calls

/-- Canceling a call comes to an end: no call that it reaches delegates to itself, directly or
through others. -/
def cancelEnds (calls : Calls) (id : CallId) : Bool :=
  (descent calls id).ends

/-- A call described in one line. -/
def describe (calls : Calls) : Plan → CallId → String
  | .constant value, _ => "Constant(" ++ value.literal ++ ")"
  | .recording _, _ => "Recording"
  | .mapped first _, id =>
      "MappedCall(" ++ describe calls first ((calls.get id).first.getD id) ++ ", map)"
  | .flatMapped first _, id =>
      "FlatMappedCall(" ++ describe calls first ((calls.get id).first.getD id) ++ ", flat_map)"
  | .search search, _ => "SearchCall(" ++ search.request.describe ++ ")"
  | .traceSearch search, id =>
      "TraceSearchCall(" ++ search.aggregation.describe ++ ", state=" ++
        (calls.get id).phase.name ++ ")"

end Calls
end TraceArchive
