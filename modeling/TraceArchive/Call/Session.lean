import TraceArchive.Call.Calls
import TraceArchive.Task.Gates

/-!
# Sessions

A session holds calls, the tasks that execute them, the gates that tasks wait at, and the backend
that searches reach.  All that can be observed is kept in a journal.

* `define`, `defineOn`, `defineClone`: new calls under a label.
* `cancel`, `watch`, `alert`: canceling a call now, or when a trace search goes to a phase.
-/

set_option autoImplicit false

namespace TraceArchive

/-- What the execution of a call comes to. -/
abbrev Outcome := Except Failure Value

/-- How a backend answers a search: it may wait at a gate before it fails or gives a body. -/
structure Reply where
  gate : Option String
  result : Except Failure Json

/-- A backend: the reply to a search, which may depend on the number of searches before it. -/
abbrev Backend := Nat → Search → Reply

/-- The backend that gives the replies of a list one after the other, whatever is asked. -/
def Backend.scripted (replies : List Reply) : Backend :=
  fun count _ => replies.getD count ⟨none, .error .noReply⟩

/-- The part of a call's body that goes on when what it waits for is there. -/
inductive Frame where
  | leaf (call : CallId) (leaf : Recording)
  | reply (call : CallId) (search : Search) (reply : Reply)
  | mapped (call : CallId) (mapper : Value → Mapping Value)
  | first (call : CallId) (mapper : Value → Mapping (Stage Plan))
  | next (call : CallId)
  | listing (call : CallId) (search : TraceSearch)
  | fetching (call : CallId) (search : TraceSearch) (ids : List String)

/-- The call whose body goes on. -/
def Frame.call : Frame → CallId
  | .leaf call _ => call
  | .reply call _ _ => call
  | .mapped call _ => call
  | .first call _ => call
  | .next call => call
  | .listing call _ => call
  | .fetching call _ _ => call

/-- Where the running task stands: before the execution of a call, or after one. -/
inductive Point where
  | before (call : CallId)
  | after (outcome : Outcome)

/-- Whom a task tells of the outcome: whoever looks at it, or a callback, which may fail itself. -/
inductive Audience where
  | caller
  | callback (fails : Bool)
  deriving DecidableEq, Repr

/-- The execution of a call. -/
structure Task where
  name : String
  call : CallId
  audience : Audience
  state : TaskState String Outcome
  stack : List Frame

instance : Inhabited Task :=
  ⟨"", 0, .caller, .ready .start, []⟩

/-- What can be observed of a session: the execution of a call begins and ends, a mapper is
applied, a trace search issues a search of its own, a search reaches the backend, a line is
logged, a callback is told of an outcome, a task ends. -/
inductive Observation where
  | began (call : CallId)
  | concluded (call : CallId) (outcome : Outcome)
  | applied (call : CallId)
  | issued (call : CallId) (stage : CallId)
  | searched (call : CallId) (search : Search)
  | logged (text : String)
  | notified (task : TaskId) (outcome : Outcome)
  | ended (task : TaskId) (outcome : Outcome)

/-- Calls, their tasks, and what has been observed of them, the latest first. -/
structure Session where
  calls : Calls
  labels : Entries String CallId
  backend : Backend
  searches : Nat
  gates : Gates
  tasks : Array Task
  ready : List TaskId
  active : Option (TaskId × Point)
  watches : List (SearchPhase × CallId)
  journal : List Observation

namespace Session

/-- A session without calls. -/
def start (backend : Backend) : Session where
  calls := #[]
  labels := []
  backend := backend
  searches := 0
  gates := .closed
  tasks := #[]
  ready := []
  active := none
  watches := []
  journal := []

/-- The call with a number. -/
def call (session : Session) (id : CallId) : Call :=
  session.calls.get id

/-- The task with a number. -/
def task (session : Session) (id : TaskId) : Task :=
  session.tasks.getD id default

/-- The session with one call changed. -/
def updateCall (session : Session) (id : CallId) (change : Call → Call) : Session :=
  { session with calls := session.calls.modify id change }

/-- The session with one task changed. -/
def updateTask (session : Session) (id : TaskId) (change : Task → Task) : Session :=
  { session with tasks := session.tasks.modify id change }

/-- The session with one more observation. -/
def note (session : Session) (entry : Observation) : Session :=
  { session with journal := entry :: session.journal }

/-- The session with new calls for a plan. -/
def add (session : Session) (plan : Plan) : Session × CallId :=
  let added := session.calls.add plan
  ({ session with calls := added.1 }, added.2)

/-- The session with a clone of a call. -/
def clone (session : Session) (id : CallId) : Session × CallId :=
  let cloned := session.calls.clone id
  ({ session with calls := cloned.1 }, cloned.2)

/-- The number of a labelled call. -/
def find (session : Session) (label : String) : Except Failure CallId :=
  match Entries.get? label session.labels with
  | some id => .ok id
  | none => .error (.unknownCall label)

/-- The session after a call was canceled, which fails when it does not end. -/
def cancel (session : Session) (id : CallId) : Except Failure Unit × Session :=
  (if session.calls.cancelEnds id then .ok () else .error .endless,
    { session with calls := session.calls.cancel id })

/-- The session after labelled calls were canceled in turn, up to a failure or to one that is not
known. -/
def cancelAll : List String → Session → Except Failure Unit × Session
  | [], session => (.ok (), session)
  | label :: rest, session =>
      match session.find label with
      | .error failure => (.error failure, session)
      | .ok id =>
          match session.cancel id with
          | (.ok _, session) => cancelAll rest session
          | failed => failed

/-- The session with new calls for a plan under a label. -/
def define (session : Session) (label : String) (plan : Plan) : Session :=
  let (session, id) := session.add plan
  { session with labels := Entries.put label id session.labels }

/-- The session with a new call under a label whose first stage is a known call. -/
def defineOn (session : Session) (label : String) (plan : Plan) (first : CallId) : Session :=
  let (calls, id) := session.calls.push plan (some first)
  { session with calls := calls, labels := Entries.put label id session.labels }

/-- The session with a clone of a call under a label. -/
def defineClone (session : Session) (label : String) (id : CallId) : Session :=
  let (session, clone) := session.clone id
  { session with labels := Entries.put label clone session.labels }

/-- The session in which a call is canceled when a trace search next goes to a phase. -/
def watch (session : Session) (phase : SearchPhase) (id : CallId) : Session :=
  { session with watches := session.watches ++ [(phase, id)] }

/-- The session after those who watch for a phase canceled their calls in turn, up to a failure.
Each watches only once; those that come after a failure go on watching, like those for other
phases. -/
def alert
    (phase : SearchPhase) :
    List (SearchPhase × CallId) → Session → Except Failure Unit × Session
  | [], session => (.ok (), { session with watches := [] })
  | watch :: rest, session =>
      if watch.1 = phase then
        match session.cancel watch.2 with
        | (.ok _, session) => alert phase rest session
        | (.error failure, session) => (.error failure, { session with watches := rest })
      else
        let (result, session) := alert phase rest session
        (result, { session with watches := watch :: session.watches })

end Session
end TraceArchive
