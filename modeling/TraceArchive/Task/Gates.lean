/-!
# Tasks and gates

Tasks are cooperative: one runs until it has to wait or ends.  A gate is closed until it is opened
and then stays open; the tasks that wait at it go on in the order in which they came.

* `isOpen_openGate`: an opened gate is open.
* `waitingAt_openGate`: nobody waits at an opened gate.
-/

set_option autoImplicit false

namespace TraceArchive

/-- The number of a task. -/
abbrev TaskId := Nat

/-- How a task that is ready goes on: it starts, it has what it waited for, it is interrupted
where it waited, or it is given up before it starts. -/
inductive Signal where
  | start
  | proceed
  | interrupt
  | abandon
  deriving DecidableEq, Repr

/-- What a task is doing: it waits at a place of type `π`, or has ended with an outcome of type
`ρ`. -/
inductive TaskState (π ρ : Type) where
  | ready (signal : Signal)
  | running
  | waiting (place : π)
  | ended (outcome : ρ)

/-- A task has ended. -/
def TaskState.isEnded {π ρ : Type} : TaskState π ρ → Bool
  | .ended _ => true
  | _ => false

/-- The gates that were opened, and who waits at closed ones, the first to come first. -/
structure Gates where
  opened : List String
  waiting : List (TaskId × String)
  deriving Repr

namespace Gates

/-- No gate is open and nobody waits. -/
def closed : Gates := ⟨[], []⟩

/-- A gate was opened. -/
def isOpen (gates : Gates) (gate : String) : Bool :=
  gates.opened.contains gate

/-- A task waits at a gate. -/
def wait (gates : Gates) (task : TaskId) (gate : String) : Gates :=
  { gates with waiting := gates.waiting ++ [(task, gate)] }

/-- A task waits no longer. -/
def forget (gates : Gates) (task : TaskId) : Gates :=
  { gates with waiting := gates.waiting.filter (·.1 ≠ task) }

/-- The tasks that wait at a gate, the first to come first. -/
def waitingAt (gates : Gates) (gate : String) : List TaskId :=
  (gates.waiting.filter (·.2 = gate)).map Prod.fst

/-- The gates after one was opened. -/
def openGate (gates : Gates) (gate : String) : Gates where
  opened := gate :: gates.opened
  waiting := gates.waiting.filter (·.2 ≠ gate)

@[simp] theorem isOpen_openGate (gates : Gates) (gate : String) :
    (gates.openGate gate).isOpen gate = true := by
  simp [openGate, isOpen]

@[simp] theorem waitingAt_openGate (gates : Gates) (gate : String) :
    (gates.openGate gate).waitingAt gate = [] := by
  simp only [waitingAt, openGate, List.filter_filter, List.map_eq_nil_iff, List.filter_eq_nil_iff]
  simp

end Gates
end TraceArchive
