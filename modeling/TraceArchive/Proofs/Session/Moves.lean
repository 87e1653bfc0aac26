import Mathlib.Logic.Relation
import TraceArchive.Call.Run

/-!
# Runs of a session

A session moves on by the steps of its running task and, between the turns of its tasks, by what
happens to it from outside.  Every order of events is a run.

* `Session.Move`, `Session.Run`, `Session.Reachable`: one move, any number of them, and what they
  lead to from a session without calls.
* `Session.Reachable.of_run`: a run leads from reachable sessions to reachable ones.
-/

set_option autoImplicit false

namespace TraceArchive
namespace Session

/-- No task is running. -/
def IsIdle (session : Session) : Prop :=
  session.active = none

/-- What can happen to a session next.  While a task is running nothing happens from outside. -/
inductive Move : Session → Session → Prop
  | step (session : Session) : Move session session.step
  | breakOff (session : Session) : Move session session.breakOff
  | define (session : Session) (label : String) (plan : Plan)
      (hidle : session.IsIdle) :
      Move session (session.define label plan)
  | map (session : Session) (label : String) (first : CallId) (mapper : Value → Mapping Value)
      (hidle : session.IsIdle) (hfirst : first < session.calls.size) :
      Move session (session.defineOn label (.mapped (session.call first).plan mapper) first)
  | flatMap (session : Session) (label : String) (first : CallId)
      (mapper : Value → Mapping (Stage Plan))
      (hidle : session.IsIdle) (hfirst : first < session.calls.size) :
      Move session (session.defineOn label (.flatMapped (session.call first).plan mapper) first)
  | spawn (session : Session) (name : String) (call : CallId) (audience : Audience)
      (hidle : session.IsIdle) (hcall : call < session.calls.size) :
      Move session (session.spawn name call audience)
  | cancel (session : Session) (call : CallId)
      (hidle : session.IsIdle) (hcall : call < session.calls.size) :
      Move session (session.cancel call).2
  | cancelTask (session : Session) (task : TaskId)
      (hidle : session.IsIdle) (htask : task < session.tasks.size) :
      Move session (session.cancelTask task).2
  | openGate (session : Session) (gate : String)
      (hidle : session.IsIdle) :
      Move session (session.openGate gate)
  | watch (session : Session) (phase : SearchPhase) (call : CallId)
      (hidle : session.IsIdle) (hcall : call < session.calls.size) :
      Move session (session.watch phase call)

/-- Any number of moves. -/
abbrev Run : Session → Session → Prop :=
  Relation.ReflTransGen Move

/-- A session that came about from one without calls. -/
def Reachable (session : Session) : Prop :=
  ∃ backend, Run (start backend) session

theorem Reachable.of_run
    {session after : Session}
    (h : session.Reachable)
    (hrun : Run session after) :
    after.Reachable := by
  obtain ⟨backend, hstart⟩ := h
  exact ⟨backend, hstart.trans hrun⟩

theorem Reachable.of_move
    {session after : Session}
    (h : session.Reachable)
    (hmove : Move session after) :
    after.Reachable :=
  h.of_run (Relation.ReflTransGen.single hmove)

/-- What holds at the start and survives every move holds of every reachable session. -/
theorem Reachable.induct
    {motive : Session → Prop}
    (hstart : ∀ backend, motive (start backend))
    (hmove : ∀ session after, motive session → Move session after → motive after)
    {session : Session}
    (h : session.Reachable) :
    motive session := by
  obtain ⟨backend, hrun⟩ := h
  induction hrun with
  | refl => exact hstart backend
  | tail _ hlast ih => exact hmove _ _ ih hlast

/-- The steps of the tasks are a run. -/
theorem run_settle (budget : Nat) (session : Session) :
    Run session (session.settle budget) := by
  induction budget generalizing session with
  | zero => exact Relation.ReflTransGen.refl
  | succ budget ih =>
      rw [settle]
      split
      · exact Relation.ReflTransGen.refl
      · exact Relation.ReflTransGen.head (Move.step session) (ih session.step)

/-! ### Starts -/

end Session

/-- Something starts: the execution of a call, or a mapper. -/
def Observation.isStart : Observation → Bool
  | .began _ => true
  | .applied _ => true
  | _ => false

namespace Session

/-- All that has started, the latest first. -/
def starts (session : Session) : List Observation :=
  session.journal.filter Observation.isStart

@[simp] theorem starts_note_of_not_isStart
    {session : Session}
    {entry : Observation}
    (h : entry.isStart = false) :
    (session.note entry).starts = session.starts := by
  simp [starts, note, h]

theorem starts_note_of_isStart
    {session : Session}
    {entry : Observation}
    (h : entry.isStart = true) :
    (session.note entry).starts = entry :: session.starts := by
  simp [starts, note, h]

end Session
end TraceArchive
