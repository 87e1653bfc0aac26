import TraceArchive.Proofs.Session.Bodies

/-!
# The stacks of the tasks

The stack of a task is a chain: each frame goes on after the call of the frame above it, and the
task stands at the call that the topmost one goes on after.  The calls of all frames are executing,
and no call has two frames.

* `Serves`: a stack that a call is executed for.
* `Steady`, `Engaged`, `Sound`: what holds whatever the running task does, what holds while a body
  runs, and what holds between two moves.
-/

set_option autoImplicit false

namespace TraceArchive

namespace Calls

/-- A collection of calls was changed: some were added, and only one call may have got another state
or another next stage. -/
structure Spares (own : CallId) (calls calls' : Calls) : Prop where
  size : calls.size ≤ calls'.size
  plan : ∀ id < calls.size, (calls'.get id).plan = (calls.get id).plan
  first : ∀ id < calls.size, (calls'.get id).first = (calls.get id).first
  state : ∀ id < calls.size, id ≠ own → (calls'.get id).state = (calls.get id).state
  next : ∀ id < calls.size, id ≠ own → (calls'.get id).next = (calls.get id).next
  fresh : ∀ id < calls'.size, calls.size ≤ id → calls'.IsFresh id

theorem Grows.spares
    {own : CallId}
    {calls calls' : Calls}
    (h : Grows own calls calls') :
    Spares own calls calls' :=
  ⟨h.size, h.plan, h.first, fun id hid _ => h.state id hid, h.next, h.fresh⟩

theorem Marks.spares
    {calls calls' : Calls}
    (h : Marks calls calls')
    (own : CallId) :
    Spares own calls calls' :=
  (h.trans_grows ((Adds.refl calls').grows own)).spares

theorem spares_setState
    (calls : Calls)
    (own : CallId)
    (state : CallState) :
    Spares own calls (calls.modify own fun call => { call with state := state }) := by
  refine ⟨Nat.le_of_eq Array.size_modify.symm, ?_, ?_, ?_, ?_, ?_⟩
  · exact fun id _ => get_setState Call.plan state (fun _ => rfl) calls own id
  · exact fun id _ => get_setState Call.first state (fun _ => rfl) calls own id
  · intro id _ hne
    rw [get_modify_of_ne hne]
  · intro id _ hne
    rw [get_modify_of_ne hne]
  · intro id hlt hle
    exact absurd hle (Nat.not_le.mpr (Nat.lt_of_lt_of_eq hlt Array.size_modify))

/-- A stack goes on, frame by frame, once a call has its outcome. -/
def Serves (calls : Calls) : CallId → List Frame → Prop
  | _, [] => True
  | id, frame :: rest => frame.awaits calls = some id ∧ Serves calls frame.call rest

/-- The call that a frame belongs to is executing, and the frame fits its plan. -/
def Holds (calls : Calls) (frame : Frame) : Prop :=
  frame.call < calls.size ∧ (calls.get frame.call).state = .executing ∧
    frame.Fits (calls.get frame.call).plan

/-- A stack is a chain of frames of different executing calls. -/
structure IsStack (calls : Calls) (stack : List Frame) : Prop where
  holds : ∀ frame ∈ stack, calls.Holds frame
  nodup : (stack.map Frame.call).Nodup
  chained : ∀ frame rest, stack = frame :: rest → calls.Serves frame.call rest

theorem isStack_nil (calls : Calls) : calls.IsStack [] :=
  ⟨by simp, List.nodup_nil, by simp⟩

theorem isStack_cons_iff {calls : Calls} {frame : Frame} {rest : List Frame} :
    calls.IsStack (frame :: rest) ↔
      calls.Holds frame ∧ (∀ below ∈ rest, below.call ≠ frame.call) ∧
        calls.Serves frame.call rest ∧ calls.IsStack rest := by
  constructor
  · intro h
    obtain ⟨hframe, hrest⟩ := List.forall_mem_cons.mp h.holds
    obtain ⟨hnotMem, hnodup⟩ := List.nodup_cons.mp h.nodup
    have hserves := h.chained frame rest rfl
    refine ⟨hframe, ?_, hserves, hrest, hnodup, ?_⟩
    · intro below hbelow hsame
      exact hnotMem (hsame ▸ List.mem_map_of_mem hbelow)
    · rintro below others rfl
      exact hserves.2
  · rintro ⟨hframe, hother, hserves, hrest⟩
    refine ⟨List.forall_mem_cons.mpr ⟨hframe, hrest.holds⟩, ?_, ?_⟩
    · refine List.nodup_cons.mpr ⟨?_, hrest.nodup⟩
      intro hmem
      obtain ⟨below, hbelow, hsame⟩ := List.mem_map.mp hmem
      exact hother below hbelow hsame
    · rintro other others heq
      cases heq
      exact hserves

theorem awaits_eq_of_spares
    {own : CallId}
    {calls calls' : Calls}
    (h : Spares own calls calls')
    {frame : Frame}
    (hlt : frame.call < calls.size)
    (hne : frame.call ≠ own) :
    frame.awaits calls' = frame.awaits calls := by
  cases frame with
  | leaf call recording => rfl
  | reply call search reply => rfl
  | mapped call mapper => exact h.first call hlt
  | first call mapper => exact h.first call hlt
  | next call => exact h.next call hlt hne
  | listing call search => exact h.next call hlt hne
  | fetching call search ids => exact h.next call hlt hne

theorem Serves.of_spares
    {own id : CallId}
    {calls calls' : Calls}
    {stack : List Frame}
    (h : calls.Serves id stack)
    (hspares : Spares own calls calls')
    (hlt : ∀ frame ∈ stack, frame.call < calls.size)
    (hne : ∀ frame ∈ stack, frame.call ≠ own) :
    calls'.Serves id stack := by
  induction stack generalizing id with
  | nil => trivial
  | cons frame rest ih =>
      obtain ⟨hlt, hltRest⟩ := List.forall_mem_cons.mp hlt
      obtain ⟨hne, hneRest⟩ := List.forall_mem_cons.mp hne
      exact ⟨(awaits_eq_of_spares hspares hlt hne).trans h.1, ih h.2 hltRest hneRest⟩

theorem Holds.of_spares
    {own : CallId}
    {calls calls' : Calls}
    {frame : Frame}
    (h : calls.Holds frame)
    (hspares : Spares own calls calls')
    (hne : frame.call ≠ own) :
    calls'.Holds frame := by
  obtain ⟨hlt, hstate, hfits⟩ := h
  refine ⟨Nat.lt_of_lt_of_le hlt hspares.size, ?_, ?_⟩
  · exact (hspares.state frame.call hlt hne).trans hstate
  · exact hspares.plan frame.call hlt ▸ hfits

theorem IsStack.of_spares
    {own : CallId}
    {calls calls' : Calls}
    {stack : List Frame}
    (h : calls.IsStack stack)
    (hspares : Spares own calls calls')
    (hne : ∀ frame ∈ stack, frame.call ≠ own) :
    calls'.IsStack stack := by
  refine ⟨fun frame hframe => (h.holds frame hframe).of_spares hspares (hne frame hframe),
    h.nodup, ?_⟩
  rintro frame rest rfl
  refine (h.chained frame rest rfl).of_spares hspares ?_ ?_
  · exact fun below hbelow => (h.holds below (List.mem_cons_of_mem frame hbelow)).1
  · exact fun below hbelow => hne below (List.mem_cons_of_mem frame hbelow)

end Calls

namespace Session

theorem task_eq_of_tasks_eq
    {session after : Session}
    (h : after.tasks = session.tasks)
    (id : TaskId) :
    after.task id = session.task id := by
  rw [task, task, h]

theorem task_eq_default
    {session : Session}
    {id : TaskId}
    (h : session.tasks.size ≤ id) :
    session.task id = default := by
  simp [task, Array.getD_eq_getD_getElem?, Array.getElem?_eq_none h]

theorem task_updateTask
    {session : Session}
    {id : TaskId}
    (hid : id < session.tasks.size)
    (change : Task → Task)
    (other : TaskId) :
    (session.updateTask id change).task other =
      if other = id then change (session.task other) else session.task other := by
  simp only [task, updateTask, Array.getD_eq_getD_getElem?, Array.getElem?_modify]
  by_cases h : id = other
  · subst h
    simp [hid]
  · simp [h, Ne.symm h]

theorem task_updateTask_of_ne
    {session : Session}
    {id other : TaskId}
    (h : other ≠ id)
    (change : Task → Task) :
    (session.updateTask id change).task other = session.task other := by
  simp [task, updateTask, Array.getD_eq_getD_getElem?, Array.getElem?_modify, Ne.symm h]

end Session

/-- The state of a task agrees with its stack: before the start and after the end there is none,
and a task that waits does so in a body that goes on after a gate. -/
def Task.IsPoised (task : Task) : Prop :=
  match task.state with
  | .ready .start => task.stack = []
  | .ready .abandon => task.stack = []
  | .ended _ => task.stack = []
  | .running => True
  | .ready .proceed => ∃ frame rest, task.stack = frame :: rest ∧ frame.IsLeaf
  | .ready .interrupt => ∃ frame rest, task.stack = frame :: rest ∧ frame.IsLeaf
  | .waiting _ => ∃ frame rest, task.stack = frame :: rest ∧ frame.IsLeaf

namespace Session

/-- The stacks of all tasks are in order, and so are the lists of the tasks that are ready or
wait. -/
structure Steady (session : Session) : Prop where
  framesHold : ∀ id, session.calls.IsStack (session.task id).stack
  apart : ∀ id other, id ≠ other → ∀ frame ∈ (session.task id).stack,
    ∀ frame' ∈ (session.task other).stack, frame.call ≠ frame'.call
  called : ∀ id < session.tasks.size, (session.task id).call < session.calls.size
  poised : ∀ id, (session.task id).IsPoised
  ready : ∀ id ∈ session.ready, id < session.tasks.size
  waiting : ∀ entry ∈ session.gates.waiting,
    entry.1 < session.tasks.size ∧ (session.task entry.1).state = .waiting entry.2

/-- The running task executes the body of a call, which no frame belongs to meanwhile. -/
structure Engaged (session : Session) (id : TaskId) (own : CallId) : Prop where
  formed : session.Formed
  steady : session.Steady
  task : id < session.tasks.size
  running : (session.task id).state = .running
  call : own < session.calls.size
  executing : (session.call own).state = .executing
  alone : ∀ other, ∀ frame ∈ (session.task other).stack, frame.call ≠ own
  serves : session.calls.Serves own (session.task id).stack

/-- What holds of a session between two moves. -/
structure Sound (session : Session) : Prop where
  formed : session.Formed
  steady : session.Steady
  running : ∀ id point, session.active = some (id, point) →
    id < session.tasks.size ∧ (session.task id).state = .running
  standing : ∀ id call, session.active = some (id, .before call) →
    call < session.calls.size ∧ session.calls.Serves call (session.task id).stack

theorem Formed.of_spares
    {session after : Session}
    {own : CallId}
    (h : session.Formed)
    (hspares : session.calls.Spares own after.calls)
    (hlabels : after.labels = session.labels) :
    after.Formed := by
  constructor
  · intro id hid
    by_cases hold : id < session.calls.size
    · exact (h.staged id hold).congr
        (fun other hother => hspares.plan other (Nat.lt_of_le_of_lt hother hold))
        (hspares.first id hold)
    · obtain ⟨_, _, _, _, hstaged⟩ := hspares.fresh id hid (Nat.not_lt.mp hold)
      exact hstaged
  · intro entry hentry
    exact Nat.lt_of_lt_of_le (h.labels entry (hlabels ▸ hentry)) hspares.size

theorem Steady.of_spares
    {session after : Session}
    {own : CallId}
    (h : session.Steady)
    (hspares : session.calls.Spares own after.calls)
    (hown : ∀ id, ∀ frame ∈ (session.task id).stack, frame.call ≠ own)
    (htasks : after.tasks = session.tasks)
    (hready : after.ready = session.ready)
    (hgates : after.gates = session.gates) :
    after.Steady := by
  have htask := task_eq_of_tasks_eq htasks
  refine ⟨?_, ?_, ?_, ?_, ?_, ?_⟩
  · intro id
    rw [htask]
    exact (h.framesHold id).of_spares hspares (hown id)
  · intro id other
    rw [htask, htask]
    exact h.apart id other
  · intro id hid
    rw [htask]
    exact Nat.lt_of_lt_of_le (h.called id (htasks ▸ hid)) hspares.size
  · intro id
    rw [htask]
    exact h.poised id
  · rw [hready, htasks]
    exact h.ready
  · intro entry hentry
    rw [htask, htasks]
    exact h.waiting entry (hgates ▸ hentry)

theorem Steady.updateTask
    {session : Session}
    (h : session.Steady)
    {id : TaskId}
    (hid : id < session.tasks.size)
    {change : Task → Task}
    (hstack : session.calls.IsStack (change (session.task id)).stack)
    (hapart : ∀ other, other ≠ id → ∀ frame ∈ (change (session.task id)).stack,
      ∀ frame' ∈ (session.task other).stack, frame.call ≠ frame'.call)
    (hcall : (change (session.task id)).call = (session.task id).call)
    (hpoised : (change (session.task id)).IsPoised)
    (hwaiting : ∀ gate, (session.task id).state = .waiting gate →
      (id, gate) ∈ session.gates.waiting →
        (change (session.task id)).state = .waiting gate) :
    (session.updateTask id change).Steady := by
  have hget := task_updateTask hid change
  have hsize : (session.updateTask id change).tasks.size = session.tasks.size := by
    simp [Session.updateTask]
  refine ⟨?_, ?_, ?_, ?_, ?_, ?_⟩
  · intro other
    rw [hget]
    split
    · rename_i hsame
      exact hsame ▸ hstack
    · exact h.framesHold other
  · intro one other hne
    rw [hget, hget]
    split
    · rename_i hsame
      subst hsame
      rw [if_neg (Ne.symm hne)]
      exact hapart other (Ne.symm hne)
    · split
      · rename_i hone hsame
        subst hsame
        exact fun frame hframe frame' hframe' heq =>
          hapart one hne frame' hframe' frame hframe heq.symm
      · exact h.apart one other hne
  · intro other hother
    rw [hget]
    split
    · rename_i hsame
      subst hsame
      rw [hcall]
      exact h.called other hid
    · exact h.called other (hsize ▸ hother)
  · intro other
    rw [hget]
    split
    · rename_i hsame
      exact hsame ▸ hpoised
    · exact h.poised other
  · intro other hother
    exact hsize ▸ h.ready other hother
  · intro entry hentry
    obtain ⟨hlt, hstate⟩ := h.waiting entry hentry
    refine ⟨hsize ▸ hlt, ?_⟩
    rw [hget]
    split
    · rename_i hsame
      obtain ⟨other, gate⟩ := entry
      cases hsame
      exact hwaiting gate hstate hentry
    · exact hstate

/-- Whatever the body of a call does, its task stays engaged with it. -/
theorem Engaged.of_piece
    {session : Session}
    {result : Progress × Session}
    {id : TaskId}
    {own : CallId}
    (h : session.Engaged id own)
    (hpiece : Piece own session result) :
    result.2.Engaged id own := by
  have hspares := hpiece.grows.spares
  have htask := task_eq_of_tasks_eq hpiece.keeps.tasks
  refine ⟨?_, ?_, ?_, ?_, ?_, ?_, ?_, ?_⟩
  · exact h.formed.of_spares hspares hpiece.keeps.labels
  · exact h.steady.of_spares hspares h.alone hpiece.keeps.tasks hpiece.keeps.ready
      hpiece.keeps.gates
  · exact hpiece.keeps.tasks ▸ h.task
  · exact (congrArg Task.state (htask id)).trans h.running
  · exact Nat.lt_of_lt_of_le h.call hpiece.grows.size
  · exact (hpiece.grows.state own h.call).trans h.executing
  · intro other
    rw [htask]
    exact h.alone other
  · rw [htask]
    exact h.serves.of_spares hspares
      (fun frame hframe => ((h.steady.framesHold id).holds frame hframe).1) (h.alone id)

end Session
end TraceArchive
