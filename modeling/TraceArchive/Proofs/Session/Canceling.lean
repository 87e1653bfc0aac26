import TraceArchive.Proofs.Session.Turns

/-!
# What canceling a call shuts off

When a call is canceled, so are all calls below it, but for leaves that ignore it.  The frames above
a canceled call therefore belong to calls that are shut, and this survives every move.

* `Calls.ShutAbove`: the calls of all frames above those of a call are shut.
* `Shut`: a canceled call for whom the running task is not about to start anything, unless a mapper
  has the value of a leaf that ignores canceling.
* `shut_of_run`: this survives every run.
-/

set_option autoImplicit false

namespace TraceArchive

namespace Calls

/-- A call does nothing more: it was canceled, or it is a leaf that ignores canceling. -/
def IsShut (calls : Calls) (id : CallId) : Prop :=
  (calls.get id).canceled = true ∨ (calls.get id).plan.ignoresCancel = true

theorem IsShut.of_flags
    {calls calls' : Calls}
    {id : CallId}
    (h : calls.IsShut id)
    (hflags : Flags calls calls')
    (hid : id < calls.size) :
    calls'.IsShut id := by
  rcases h with hcanceled | hignores
  · exact Or.inl (hflags.canceled id hid hcanceled)
  · exact Or.inr (hflags.plan id hid ▸ hignores)

/-- Some frame of a stack belongs to a call. -/
def OnStack (id : CallId) (stack : List Frame) : Prop :=
  ∃ frame ∈ stack, frame.call = id

theorem not_onStack_nil (id : CallId) : ¬ OnStack id [] :=
  fun ⟨_, hframe, _⟩ => absurd hframe List.not_mem_nil

theorem onStack_cons
    {id : CallId}
    {frame : Frame}
    {rest : List Frame} :
    OnStack id (frame :: rest) ↔ frame.call = id ∨ OnStack id rest := by
  simp [OnStack]

/-- A call that runs on behalf of a canceled one was canceled as well, unless it ignores that. -/
theorem canceled_of_behalf
    {calls : Calls}
    {id own : CallId}
    {stack : List Frame}
    (hcanceled : (calls.get id).canceled = true)
    (hshut : OnStack id stack → calls.IsShut own)
    (hheeds : (calls.get own).plan.ignoresCancel = false)
    (hbehalf : own = id ∨ OnStack id stack) :
    (calls.get own).canceled = true := by
  rcases hbehalf with rfl | hmem
  · exact hcanceled
  · rcases hshut hmem with hflag | hignores
    · exact hflag
    · rw [hheeds] at hignores
      cases hignores

/-- The calls of all frames above those of a call are shut. -/
def ShutAbove (calls : Calls) (id : CallId) : List Frame → Prop
  | [] => True
  | frame :: rest => (OnStack id rest → calls.IsShut frame.call) ∧ ShutAbove calls id rest

theorem ShutAbove.of_flags
    {calls calls' : Calls}
    {id : CallId}
    {stack : List Frame}
    (h : calls.ShutAbove id stack)
    (hflags : Flags calls calls')
    (hlt : ∀ frame ∈ stack, frame.call < calls.size) :
    calls'.ShutAbove id stack := by
  induction stack with
  | nil => trivial
  | cons frame rest ih =>
      obtain ⟨hframe, hrest⟩ := List.forall_mem_cons.mp hlt
      exact ⟨fun hmem => (h.1 hmem).of_flags hflags hframe, ih h.2 hrest⟩

/-- The plan of a frame that goes on after a call does not ignore canceling. -/
theorem ignoresCancel_of_awaits
    {calls : Calls}
    {frame : Frame}
    {plan : Plan}
    {id : CallId}
    (hfits : frame.Fits plan)
    (hawaits : frame.awaits calls = some id) :
    plan.ignoresCancel = false := by
  cases frame with
  | leaf call recording => cases hawaits
  | reply call search reply => cases hawaits
  | mapped call mapper =>
      obtain ⟨first, rfl⟩ := hfits
      rfl
  | first call mapper =>
      obtain ⟨first, rfl⟩ := hfits
      rfl
  | next call =>
      obtain ⟨first, mapper, rfl⟩ := hfits
      rfl
  | listing call search =>
      cases hfits
      rfl
  | fetching call search ids =>
      cases hfits
      rfl

theorem mem_delegates_of_awaits
    {calls : Calls}
    {frame : Frame}
    {id : CallId}
    (hholds : calls.Holds frame)
    (hawaits : frame.awaits calls = some id) :
    id ∈ (calls.get frame.call).delegates := by
  rw [Call.mem_delegates (ignoresCancel_of_awaits hholds.2.2 hawaits)]
  cases frame with
  | leaf call recording => cases hawaits
  | reply call search reply => cases hawaits
  | mapped call mapper => exact Or.inl hawaits
  | first call mapper => exact Or.inl hawaits
  | next call => exact Or.inr hawaits
  | listing call search => exact Or.inr hawaits
  | fetching call search ids => exact Or.inr hawaits

/-- A call that a stack waits for is below the call of each of its frames. -/
theorem below_of_serves
    {calls : Calls}
    {id own : CallId}
    {stack : List Frame}
    (hholds : ∀ frame ∈ stack, calls.Holds frame)
    (hserves : calls.Serves own stack)
    (hmem : OnStack id stack) :
    calls.Below id own := by
  induction stack generalizing own with
  | nil => exact absurd hmem (not_onStack_nil id)
  | cons frame rest ih =>
      obtain ⟨hframe, hrest⟩ := List.forall_mem_cons.mp hholds
      have hlast := mem_delegates_of_awaits hframe hserves.1
      rcases onStack_cons.mp hmem with rfl | hbelow
      · exact Relation.ReflTransGen.single hlast
      · exact (ih hrest hserves.2 hbelow).tail hlast

/-- When all calls below a call are shut, so are those above it on a stack. -/
theorem shutAbove_of_isStack
    {calls calls' : Calls}
    {id : CallId}
    (hshut : ∀ other < calls.size, calls.Below id other → calls'.IsShut other)
    {stack : List Frame}
    (hstack : calls.IsStack stack) :
    calls'.ShutAbove id stack := by
  induction stack with
  | nil => trivial
  | cons frame rest ih =>
      obtain ⟨hframe, _, hserves, hrest⟩ := isStack_cons_iff.mp hstack
      refine ⟨fun hmem => ?_, ih hrest⟩
      exact hshut frame.call hframe.1 (below_of_serves hrest.holds hserves hmem)

end Calls

namespace Session

/-! ### Canceled calls -/

/-- A canceled call for whom nothing new is about to start: whatever its frame waits for is shut,
the running task does not stand at a new call on its behalf, and comes back with a value only from a
leaf that ignores canceling. -/
structure Shut (session : Session) (id : CallId) : Prop where
  call : id < session.calls.size
  canceled : (session.call id).canceled = true
  above : ∀ task, session.calls.ShutAbove id (session.task task).stack
  before : ∀ task own, session.active = some (task, .before own) →
    Calls.OnStack id (session.task task).stack →
      (session.call own).state ≠ .new ∨ (session.call own).canceled = true
  value : ∀ task value, session.active = some (task, .after (.ok value)) →
    Calls.OnStack id (session.task task).stack →
      ∀ frame rest, (session.task task).stack = frame :: rest →
        ∀ own, frame.awaits session.calls = some own →
          (session.call own).plan.ignoresCancel = true

/-- The same while the body of a call runs. -/
structure ShutBody (session : Session) (id : CallId) (task : TaskId) (own : CallId) : Prop where
  call : id < session.calls.size
  canceled : (session.call id).canceled = true
  above : ∀ other, session.calls.ShutAbove id (session.task other).stack
  own : Calls.OnStack id (session.task task).stack → session.calls.IsShut own

theorem lt_of_mem_stack
    {session : Session}
    (h : session.Steady)
    (task : TaskId) :
    ∀ frame ∈ (session.task task).stack, frame.call < session.calls.size :=
  fun frame hframe => ((h.framesHold task).holds frame hframe).1

theorem ShutBody.of_piece
    {session : Session}
    {id own : CallId}
    {task : TaskId}
    {result : Progress × Session}
    (h : session.ShutBody id task own)
    (hengaged : session.Engaged task own)
    (hpiece : Piece own session result) :
    result.2.ShutBody id task own := by
  have hflags := hpiece.grows.flags
  have htask := task_eq_of_tasks_eq hpiece.keeps.tasks
  refine ⟨Nat.lt_of_lt_of_le h.call hflags.size, hflags.canceled id h.call h.canceled, ?_, ?_⟩
  · intro other
    rw [htask]
    exact (h.above other).of_flags hflags (lt_of_mem_stack hengaged.steady other)
  · intro hmem
    rw [htask] at hmem
    exact (h.own hmem).of_flags hflags hengaged.call

/-- A call that is canceled or below a canceled one has no value, unless it ignores canceling. -/
theorem ignoresCancel_of_conclusion
    {call : Call}
    {outcome : Outcome}
    {value : Value}
    (hvalue : (conclusion call outcome).2 = .ok value)
    (hshut : call.canceled = true ∨ call.plan.ignoresCancel = true) :
    call.plan.ignoresCancel = true := by
  rcases hshut with hflag | hignores
  · cases outcome with
    | error failure => cases failure <;> cases hvalue
    | ok result =>
        rw [conclusion, if_pos hflag] at hvalue
        cases hvalue
  · exact hignores

/-- A body that goes on later leaves a frame above those that it runs for. -/
theorem ShutBody.pushing
    {session : Session}
    {id own : CallId}
    {task : TaskId}
    {frame : Frame}
    (h : session.ShutBody id task own)
    (hengaged : session.Engaged task own)
    (hcall : frame.call = own)
    (other : TaskId) :
    session.calls.ShutAbove id ((session.pushing task frame).task other).stack := by
  by_cases hsame : other = task
  · subst hsame
    rw [Session.pushing, task_updateTask hengaged.task, if_pos rfl]
    exact ⟨hcall ▸ h.own, h.above other⟩
  · rw [Session.pushing, task_updateTask_of_ne hsame]
    exact h.above other

theorem ShutBody.ends
    {session : Session}
    {id own : CallId}
    {task : TaskId}
    (h : session.ShutBody id task own)
    (hengaged : session.Engaged task own)
    (outcome : Outcome) :
    (session.advance task own (.ends outcome)).Shut id := by
  rw [advance_ends]
  have hflags := (Calls.Flags.refl session.calls).setState own
    (conclusion (session.call own) outcome).1
  refine ⟨Nat.lt_of_lt_of_le h.call hflags.size, hflags.canceled id h.call h.canceled, ?_, ?_, ?_⟩
  · intro other
    exact (h.above other).of_flags hflags (lt_of_mem_stack hengaged.steady other)
  · rintro other next ⟨⟩
  · intro other value hactive hmem frame rest hstack next hawaits
    simp only [goOn, Option.some.injEq, Prod.mk.injEq, Point.after.injEq] at hactive
    obtain ⟨rfl, hvalue⟩ := hactive
    -- The topmost frame waits for the call that has just ended.
    have hcons : (session.task task).stack = frame :: rest := hstack
    have hframe : frame ∈ (session.task task).stack := hcons ▸ List.mem_cons_self
    have hserves := hengaged.serves
    rw [hcons] at hserves
    have hsame := Calls.awaits_eq_of_spares
      (Calls.spares_setState session.calls own (conclusion (session.call own) outcome).1)
      (lt_of_mem_stack hengaged.steady task frame hframe) (hengaged.alone task frame hframe)
    obtain rfl : own = next :=
      Option.some.inj (hserves.1.symm.trans (hsame.symm.trans hawaits))
    have hplan := hflags.plan own hengaged.call
    exact (congrArg Plan.ignoresCancel hplan).trans
      (ignoresCancel_of_conclusion hvalue (h.own hmem))

theorem ShutBody.executes
    {session : Session}
    {id own next : CallId}
    {task : TaskId}
    {frame : Frame}
    (h : session.ShutBody id task own)
    (hengaged : session.Engaged task own)
    (hfits : (Progress.executes next frame).Fits own session.calls)
    (hexecutes : own = id ∨ Calls.OnStack id (session.task task).stack →
      (session.call next).state ≠ .new ∨ (session.call next).canceled = true) :
    (session.advance task own (.executes next frame)).Shut id := by
  obtain ⟨hcall, hfits, _⟩ := hfits
  have htask := (hengaged.pushing hcall hfits).2.2
  rw [advance_executes]
  refine ⟨h.call, h.canceled, h.pushing hengaged hcall, ?_, ?_⟩
  · rintro other called ⟨⟩ hmem
    have hmem' : Calls.OnStack id ((session.pushing task frame).task task).stack := hmem
    rw [htask, Calls.onStack_cons, hcall] at hmem'
    exact hexecutes hmem'
  · rintro other value ⟨⟩

theorem ShutBody.waits
    {session : Session}
    {id own : CallId}
    {task : TaskId}
    {gate : Option String}
    {frame : Frame}
    (h : session.ShutBody id task own)
    (hengaged : session.Engaged task own)
    (hfits : (Progress.waits gate frame).Fits own session.calls) :
    (session.advance task own (.waits gate frame)).Shut id := by
  obtain ⟨hcall, hfits, hleaf⟩ := hfits
  have htask := (hengaged.pushing hcall hfits).2.2
  have habove := h.pushing hengaged hcall
  rcases advance_waits session task own gate frame with heq | ⟨place, heq⟩
  · rw [heq]
    refine ⟨h.call, h.canceled, habove, ?_, ?_⟩
    · rintro other next ⟨⟩
    · rintro other value ⟨⟩ hmem top rest hstack next hawaits
      have hcons : ((session.pushing task frame).task task).stack = top :: rest := hstack
      rw [htask] at hcons
      cases hcons
      cases (hleaf.awaits _).symm.trans hawaits
  · rw [heq]
    refine ⟨h.call, h.canceled, ?_, ?_, ?_⟩
    · intro other
      have hstack := stack_setState (session.pushing task frame) task (.waiting place) other
      exact hstack.symm ▸ habove other
    · rintro other next ⟨⟩
    · rintro other value ⟨⟩

/-- From a piece of a body, nothing new starts on behalf of a shut call. -/
theorem ShutBody.advance
    {session : Session}
    {id own : CallId}
    {task : TaskId}
    {progress : Progress}
    (h : session.ShutBody id task own)
    (hengaged : session.Engaged task own)
    (hfits : progress.Fits own session.calls)
    (hexecutes : ∀ next frame, progress = .executes next frame →
      own = id ∨ Calls.OnStack id (session.task task).stack →
        (session.call next).state ≠ .new ∨ (session.call next).canceled = true) :
    (session.advance task own progress).Shut id := by
  cases progress with
  | ends outcome => exact h.ends hengaged outcome
  | executes next frame => exact h.executes hengaged hfits (hexecutes next frame rfl)
  | waits gate frame => exact h.waits hengaged hfits

/-- Where no body runs, nothing new is about to start. -/
theorem Turns.shut
    {session after : Session}
    {id : CallId}
    (h : Turns session after)
    (hid : id < after.calls.size)
    (hcanceled : (after.call id).canceled = true)
    (habove : ∀ task, after.calls.ShutAbove id (after.task task).stack) :
    after.Shut id := by
  refine ⟨hid, hcanceled, habove, ?_, ?_⟩
  · intro task own hactive hmem
    rw [h.before task own hactive] at hmem
    exact absurd hmem (Calls.not_onStack_nil id)
  · intro task value hactive _ frame rest hstack own hawaits
    obtain ⟨top, others, hcons, hleaf⟩ := h.value task value hactive
    cases hcons.symm.trans hstack
    cases (hleaf.awaits after.calls).symm.trans hawaits

theorem Shut.of_turns
    {session after : Session}
    {id : CallId}
    (h : session.Shut id)
    (hsound : session.Sound)
    (hturns : Turns session after) :
    after.Shut id := by
  have hflags := hturns.flags
  apply hturns.shut (Nat.lt_of_lt_of_le h.call hflags.size) (hflags.canceled id h.call h.canceled)
  intro task
  rcases hturns.framesKept task with hsame | hnil
  · rw [hsame]
    exact (h.above task).of_flags hflags (lt_of_mem_stack hsound.steady task)
  · rw [hnil]
    trivial

theorem ignoresCancel_of_executes
    {calls : Calls}
    {own next : CallId}
    {frame : Frame}
    (hfits : (Progress.executes next frame).Fits own calls) :
    (calls.get own).plan.ignoresCancel = false :=
  Calls.ignoresCancel_of_awaits hfits.2.1 hfits.2.2.1

/-- A call that starts while another is shut is not the shut one, and not on its behalf. -/
theorem Shut.not_behalf_of_new
    {session : Session}
    {id own : CallId}
    {task : TaskId}
    (h : session.Shut id)
    (hactive : session.active = some (task, .before own))
    (hstate : (session.call own).state = .new)
    (hflag : (session.call own).canceled = false) :
    own ≠ id ∧ ¬ Calls.OnStack id (session.task task).stack := by
  constructor
  · rintro rfl
    rw [h.canceled] at hflag
    cases hflag
  · intro hmem
    rcases h.before task own hactive hmem with hnotNew | hcanceled
    · exact hnotNew hstate
    · rw [hcanceled] at hflag
      cases hflag

theorem Shut.opening
    {session : Session}
    {id own : CallId}
    {task : TaskId}
    (h : session.Shut id)
    (hsound : session.Sound)
    (hoff : ¬ Calls.OnStack id (session.task task).stack) :
    (session.opening own).ShutBody id task own := by
  have hflags := (Calls.Flags.refl session.calls).setState own .executing
  refine ⟨Nat.lt_of_lt_of_le h.call hflags.size, hflags.canceled id h.call h.canceled, ?_,
    fun hmem => absurd hmem hoff⟩
  exact fun other => (h.above other).of_flags hflags (lt_of_mem_stack hsound.steady other)

theorem Shut.reopening
    {session : Session}
    {id : CallId}
    {task : TaskId}
    {frame : Frame}
    {rest : List Frame}
    (h : session.Shut id)
    (htask : task < session.tasks.size)
    (hstack : (session.task task).stack = frame :: rest) :
    (session.reopening task rest).ShutBody id task frame.call := by
  have hget := task_reopening htask rest
  have habove := h.above task
  rw [hstack] at habove
  refine ⟨h.call, h.canceled, ?_, ?_⟩
  · intro other
    rw [hget]
    split
    · exact habove.2
    · exact h.above other
  · rw [hget, if_pos rfl]
    exact habove.1

/-- Nothing is taken up again on behalf of a shut call, whatever happens. -/
theorem shut_of_move
    {session after : Session}
    {id : CallId}
    (h : session.Shut id)
    (hsound : session.Sound)
    (hmove : Move session after) :
    after.Shut id := by
  rcases move_cases hsound hmove with hturns | ⟨task, own, hactive, hstate, hflag, rfl⟩ |
    ⟨task, outcome, frame, rest, hactive, hstack, rfl⟩
  · exact h.of_turns hsound hturns
  · have hengaged := engaged_opening hsound hactive hstate
    have hpiece := piece_opening hsound hactive hstate
    obtain ⟨hne, hoff⟩ := h.not_behalf_of_new hactive hstate hflag
    have hbody := (h.opening hsound hoff).of_piece hengaged hpiece
    refine hbody.advance (hengaged.of_piece hpiece) hpiece.fits ?_
    rintro next frame _ (hsame | hmem)
    · exact absurd hsame hne
    · rw [task_eq_of_tasks_eq hpiece.keeps.tasks] at hmem
      exact absurd hmem hoff
  · have hengaged := engaged_reopening hsound hactive hstack
    have hpiece := piece_reopening hsound hactive hstack
    have hbody := h.reopening (hsound.running task _ hactive).1 hstack
    refine (hbody.of_piece hengaged hpiece).advance (hengaged.of_piece hpiece) hpiece.fits ?_
    -- A body that goes on to another call has just seen that its own call is not canceled.
    intro next frame' hexecutes hbehalf
    exfalso
    have hflag := (canceled_of_resume hengaged.call hexecutes).1
    have hfits := hpiece.fits
    rw [hexecutes] at hfits
    have hplan := hpiece.grows.plan frame.call hengaged.call
    have hheeds := (congrArg Plan.ignoresCancel hplan).symm.trans (ignoresCancel_of_executes hfits)
    rw [task_eq_of_tasks_eq hpiece.keeps.tasks] at hbehalf
    have hcanceled := Calls.canceled_of_behalf hbody.canceled hbody.own hheeds hbehalf
    exact absurd (hcanceled.symm.trans hflag) (by decide)

theorem shut_of_run
    {session after : Session}
    {id : CallId}
    (h : session.Shut id)
    (hsound : session.Sound)
    (hrun : Run session after) :
    after.Shut id := by
  suffices after.Sound ∧ after.Shut id from this.2
  induction hrun with
  | refl => exact ⟨hsound, h⟩
  | tail _ hmove ih => exact ⟨sound_of_move ih.1 hmove, shut_of_move ih.2 ih.1 hmove⟩

end Session
end TraceArchive
