import TraceArchive.Call.Body

/-!
# Running the tasks of a session

Tasks are cooperative: one runs until it waits at a closed gate or ends, then the next one that is
ready goes on.  Closed gates are the only places where a task waits.  Tasks are canceled from
outside, between two turns: no mapper and no callback cancels the task that it runs in.

* `step`: the smallest step of the running task, or the start of the next one.
* `settle`: steps until every task waits or has ended.
* `settleWithin`: the same, but a task that never ends is broken off.
* `spawn`, `cancelTask`, `openGate`: what happens to a session from outside.
-/

set_option autoImplicit false

namespace TraceArchive
namespace Session

/-- The state and the outcome of a call whose body has ended: what arrives after it was canceled is
given up. -/
def conclusion (call : Call) : Outcome → CallState × Outcome
  | .error .interrupted => (.canceled, .error .interrupted)
  | .error failure => (if call.canceled then .canceled else .failed, .error failure)
  | .ok value =>
      if call.canceled then (.canceled, .error (.canceledDuring call.plan.kind))
      else (.done, .ok value)

/-- The running task stands at a point. -/
def goOn (session : Session) (task : TaskId) (point : Point) : Session :=
  { session with active := some (task, point) }

/-- The session after a call's body went on to its next point. -/
def advance
    (session : Session)
    (task : TaskId)
    (id : CallId) :
    Progress → Session
  | .ends outcome =>
      let (state, outcome) := conclusion (session.call id) outcome
      ((session.note (.concluded id outcome)).updateCall id fun call =>
        { call with state := state }).goOn task (.after outcome)
  | .executes next frame =>
      (session.updateTask task fun task => { task with stack := frame :: task.stack }).goOn task
        (.before next)
  | .waits gate frame =>
      let session := session.updateTask task fun task => { task with stack := frame :: task.stack }
      match gate.filter fun gate => !session.gates.isOpen gate with
      | none => session.goOn task (.after (.ok .null))
      | some gate =>
          { session.updateTask task fun task => { task with state := .waiting gate } with
            gates := session.gates.wait task gate
            active := none }

/-- The running task executes a call: one that is not new is refused, and so is one that was
canceled. -/
def execute (session : Session) (task : TaskId) (id : CallId) : Session :=
  let call := session.call id
  if call.state ≠ .new then
    session.goOn task (.after (.error (.alreadyExecuted call.plan.kind)))
  else if call.canceled then
    (session.updateCall id fun call => { call with state := .canceled }).goOn task
      (.after (.error (.canceledBefore call.plan.kind)))
  else
    let session := session.updateCall id fun call => { call with state := .executing }
    let (progress, session) := (session.note (.began id)).begin id
    session.advance task id progress

/-- The running task has ended. -/
def finish (session : Session) (task : TaskId) (outcome : Outcome) : Session :=
  { (session.updateTask task fun task => { task with state := .ended outcome }).note
      (.ended task outcome) with
    active := none }

/-- What a callback is told. -/
def announcement (kind : CallKind) : Outcome → Outcome
  | .error .interrupted => .error (.canceledTask kind)
  | outcome => outcome

/-- How a task ends that told a callback: a callback that fails ends it, and so does an
interruption; any other failure was for the callback alone. -/
def afterCallback (fails : Bool) (outcome : Outcome) : Outcome :=
  if fails then .error .callbackFailed
  else match outcome with
    | .error .interrupted => .error .interrupted
    | _ => .ok .null

/-- The running task tells its audience of the outcome and ends. -/
def report (session : Session) (id : TaskId) (outcome : Outcome) : Session :=
  let task := session.task id
  match task.audience with
  | .caller => session.finish id outcome
  | .callback fails =>
      (session.note (.notified id (announcement (session.call task.call).plan.kind outcome))).finish
        id (afterCallback fails outcome)

/-- The running task goes back to what waits for an outcome. -/
def giveBack (session : Session) (id : TaskId) (outcome : Outcome) : Session :=
  match (session.task id).stack with
  | [] => session.report id outcome
  | frame :: rest =>
      let session := session.updateTask id fun task => { task with stack := rest }
      let (progress, session) := session.resume frame outcome
      session.advance id frame.call progress

/-- The next task that is ready goes on. -/
def wake (session : Session) (id : TaskId) : Session :=
  let session' := session.updateTask id fun task => { task with state := .running }
  match (session.task id).state with
  | .ready .start => session'.goOn id (.before (session.task id).call)
  | .ready .proceed => session'.goOn id (.after (.ok .null))
  | .ready .interrupt => session'.goOn id (.after (.error .interrupted))
  | .ready .abandon => session'.finish id (.error .interrupted)
  | _ => session

/-- The smallest step of the running task, or the start of the next one that is ready. -/
def step (session : Session) : Session :=
  match session.active with
  | some (task, .before id) => { session with active := none }.execute task id
  | some (task, .after outcome) => { session with active := none }.giveBack task outcome
  | none =>
      match session.ready with
      | [] => session
      | id :: rest => { session with ready := rest }.wake id

/-- Every task waits or has ended. -/
def isSettled (session : Session) : Bool :=
  session.active.isNone && session.ready.isEmpty

/-- Steps until every task waits or has ended, at most as many as the budget allows. -/
def settle : Nat → Session → Session
  | 0, session => session
  | budget + 1, session => if session.isSettled then session else settle budget session.step

/-- The session after its running task was broken off: what was about to go on fails. -/
def breakOff (session : Session) : Session :=
  match session.active with
  | some (task, _) => session.goOn task (.after (.error .endless))
  | none => session

/-- Steps until every task waits or has ended.  A task that takes more steps than the budget allows
is broken off, at most as often as there are rounds. -/
def settleWithin (budget : Nat) : Nat → Session → Session
  | 0, session => session
  | rounds + 1, session =>
      let session := session.settle budget
      if session.isSettled then session else settleWithin budget rounds session.breakOff

/-- The session with a new task that executes a call. -/
def spawn
    (session : Session)
    (name : String)
    (call : CallId)
    (audience : Audience) :
    Session :=
  { session with
    tasks := session.tasks.push ⟨name, call, audience, .ready .start, []⟩
    ready := session.ready ++ [session.tasks.size] }

/-- The session after a task was canceled, and whether it had not ended yet.  A task that was not
started is given up; any other is interrupted where it waits. -/
def cancelTask (session : Session) (id : TaskId) : Bool × Session :=
  match (session.task id).state with
  | .ended _ => (false, session)
  | .running => (true, session)
  | .ready .start =>
      (true, session.updateTask id fun task => { task with state := .ready .abandon })
  | .ready .abandon => (true, session)
  | .ready _ => (true, session.updateTask id fun task => { task with state := .ready .interrupt })
  | .waiting _ =>
      (true,
        { session.updateTask id fun task => { task with state := .ready .interrupt } with
          gates := session.gates.forget id
          ready := session.ready ++ [id] })

/-- The session after a gate was opened: its waiters are ready, in the order in which they came. -/
def openGate (session : Session) (gate : String) : Session :=
  let woken := session.gates.waitingAt gate
  let session := woken.foldl (fun session id =>
    session.updateTask id fun task => { task with state := .ready .proceed }) session
  { session with
    gates := session.gates.openGate gate
    ready := session.ready ++ woken }

end Session
end TraceArchive
