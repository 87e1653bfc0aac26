import TraceArchive.Proofs.Session.Extension
import TraceArchive.Proofs.Session.Tasks

/-!
# Where the execution of a call returns to

A task that comes to a call leaves the stack that it has then alone until the call has its outcome,
and goes on with that outcome from there.

* `stack_of_idle`, `above_of_move`: the frames below the topmost one stay where they are.
* `Agrees`, `agrees_conclusion`: a call whose state is the one that its outcome calls for.
* `Hosts`, `Returns`: a task executes a call, and has its outcome.
* `Hosts.of_move`: the body of a call goes on until the call returns.
* `exists_hosts`: every call that is executing is hosted by a task.
-/

set_option autoImplicit false

namespace TraceArchive

/-- The state of a call and its outcome agree: it is done with a value, which it then has without
having been canceled; it is canceled when it was told to be or its task was interrupted; and it has
failed with any other failure. -/
structure Agrees (call : Call) (outcome : Outcome) : Prop where
  done : call.state = .done ↔ ∃ value, outcome = .ok value
  heeded : call.state = .done → call.canceled = false
  canceled : call.state = .canceled ↔ call.canceled = true ∨ outcome = .error .interrupted
  failed : call.state = .failed ↔
    call.canceled = false ∧ ∃ failure, outcome = .error failure ∧ failure ≠ .interrupted

theorem Agrees.isFinal
    {call : Call}
    {outcome : Outcome}
    (h : Agrees call outcome) :
    call.state.isFinal = true := by
  rcases outcome with failure | value
  · by_cases hcanceled : call.canceled = true ∨ failure = .interrupted
    · rw [h.canceled.mpr (hcanceled.imp_right (congrArg Except.error))]
      rfl
    · obtain ⟨hflag, hother⟩ := not_or.mp hcanceled
      rw [h.failed.mpr ⟨Bool.not_eq_true _ ▸ hflag, failure, rfl, hother⟩]
      rfl
  · rw [h.done.mpr ⟨value, rfl⟩]
    rfl

/-- A new call that was canceled is refused with a failure of its own. -/
theorem agrees_refused
    {call : Call}
    (hstate : call.state = .canceled)
    (hflag : call.canceled = true) :
    Agrees call (.error (.canceledBefore call.plan.kind)) := by
  constructor <;> simp [hstate, hflag]

namespace Session

/-- Whatever a body ends with, the state that its call gets agrees with the outcome that is handed
on. -/
theorem agrees_conclusion (call : Call) (outcome : Outcome) :
    Agrees { call with state := (conclusion call outcome).1 } (conclusion call outcome).2 := by
  cases outcome with
  | ok value =>
      cases hflag : call.canceled with
      | true => constructor <;> simp [conclusion, hflag]
      | false => constructor <;> simp [conclusion, hflag]
  | error failure =>
      by_cases hinterrupted : failure = .interrupted
      · subst hinterrupted
        constructor <;> simp [conclusion]
      · have hconclusion : conclusion call (.error failure) =
            (if call.canceled then .canceled else .failed, .error failure) := by
          cases failure with
          | interrupted => exact absurd rfl hinterrupted
          | _ => rfl
        rw [hconclusion]
        cases hflag : call.canceled with
        | true => constructor <;> simp
        | false => constructor <;> simp [hinterrupted]

/-! ### Stacks between the steps of a task -/

theorem stack_wake
    (session : Session)
    (id other : TaskId) :
    ((session.wake id).task other).stack = (session.task other).stack := by
  have hrunning := stack_setState session id .running other
  unfold wake
  dsimp only
  split
  · exact hrunning
  · exact hrunning
  · exact hrunning
  · exact (stack_setState _ id _ other).trans hrunning
  · rfl

/-- What happens while no task makes a step leaves all stacks alone. -/
theorem stack_of_idle
    {session after : Session}
    (h : session.Steady)
    (hidle : session.IsIdle)
    (hmove : Move session after)
    (id : TaskId) :
    (after.task id).stack = (session.task id).stack := by
  cases hmove with
  | step =>
      rcases step_of_idle hidle with heq | ⟨other, rest, _, heq⟩
      · rw [heq]
      · rw [heq]
        exact stack_wake { session with ready := rest } other id
  | breakOff => rw [breakOff, hidle]
  | define label plan => rfl
  | map label first mapper => rfl
  | flatMap label first mapper => rfl
  | spawn name call audience =>
      rw [task_spawn]
      split
      · rename_i hnew
        rw [task_eq_default (Nat.le_of_eq hnew.symm)]
        rfl
      · rfl
  | cancel call => rfl
  | cancelTask other =>
      unfold cancelTask
      split
      · rfl
      · rfl
      · exact stack_setState session other _ id
      · rfl
      · exact stack_setState session other _ id
      · exact stack_setState session other _ id
  | openGate gate =>
      obtain ⟨_, _, htask⟩ := foldl_proceed (session.gates.waitingAt gate)
        fun other hother => (h.waits_at hother).1
      refine (congrArg Task.stack (htask id)).trans ?_
      split <;> rfl
  | watch phase call => rfl

/-- A body that does not end leaves a frame of its own call on the stack. -/
theorem Engaged.stack_advance
    {session : Session}
    {id : TaskId}
    {own : CallId}
    {progress : Progress}
    (h : session.Engaged id own)
    (hfits : progress.Fits own session.calls) :
    (∃ outcome, progress = .ends outcome) ∨
      ∃ frame, frame.call = own ∧
        ((session.advance id own progress).task id).stack = frame :: (session.task id).stack ∧
        (session.advance id own progress).calls = session.calls := by
  cases progress with
  | ends outcome => exact Or.inl ⟨outcome, rfl⟩
  | executes next frame =>
      have htask := (h.pushing hfits.1 hfits.2.1).2.2
      exact Or.inr ⟨frame, hfits.1, congrArg Task.stack htask, rfl⟩
  | waits gate frame =>
      have hstack := congrArg Task.stack (h.pushing hfits.1 hfits.2.1).2.2
      rcases advance_waits session id own gate frame with heq | ⟨place, heq⟩
      · rw [heq]
        exact Or.inr ⟨frame, hfits.1, hstack, rfl⟩
      · rw [heq]
        exact Or.inr ⟨frame, hfits.1, (stack_setState _ id _ id).trans hstack, rfl⟩

/-- After a piece of a body the stack is as before, but for a frame that may have come on top. -/
theorem Engaged.exists_stack_advance
    {session : Session}
    {id : TaskId}
    {own : CallId}
    {progress : Progress}
    (h : session.Engaged id own)
    (hfits : progress.Fits own session.calls) :
    ∃ pushed, ((session.advance id own progress).task id).stack =
      pushed ++ (session.task id).stack := by
  rcases h.stack_advance hfits with ⟨outcome, rfl⟩ | ⟨frame, _, hstack, _⟩
  · exact ⟨[], rfl⟩
  · exact ⟨[frame], hstack⟩

/-- A step of a task leaves the frames below the topmost one where they are, and the topmost one
too, unless its body goes on. -/
theorem above_step
    {session : Session}
    {id : TaskId}
    {point : Point}
    {above below : List Frame}
    (h : session.Sound)
    (hactive : session.active = some (id, point))
    (hstack : (session.task id).stack = above ++ below)
    (hrests : ∀ outcome, point = .after outcome → above ≠ []) :
    ∃ above', (session.step.task id).stack = above' ++ below := by
  rcases point with own | outcome
  · by_cases hstate : (session.call own).state = .new
    · cases hflag : (session.call own).canceled with
      | true =>
          rw [step_before_of_canceled hactive hstate hflag]
          exact ⟨above, hstack⟩
      | false =>
          have hpiece := piece_opening h hactive hstate
          have hbody := (engaged_opening h hactive hstate).of_piece hpiece
          obtain ⟨pushed, hpushed⟩ := hbody.exists_stack_advance hpiece.fits
          rw [task_eq_of_tasks_eq hpiece.keeps.tasks] at hpushed
          rw [step_before_of_new hactive hstate hflag]
          refine ⟨pushed ++ above, hpushed.trans ?_⟩
          rw [List.append_assoc]
          exact congrArg (pushed ++ ·) hstack
    · rw [step_before_of_ne_new hactive hstate]
      exact ⟨above, hstack⟩
  · cases above with
    | nil => exact absurd rfl (hrests outcome rfl)
    | cons frame rest =>
        have htop : (session.task id).stack = frame :: (rest ++ below) := hstack
        have hpiece := piece_reopening h hactive htop
        have hbody := (engaged_reopening h hactive htop).of_piece hpiece
        obtain ⟨pushed, hpushed⟩ := hbody.exists_stack_advance hpiece.fits
        rw [task_eq_of_tasks_eq hpiece.keeps.tasks, task_reopening (h.running id _ hactive).1,
          if_pos rfl] at hpushed
        rw [step_after_cons hactive htop]
        exact ⟨pushed ++ rest, hpushed.trans (List.append_assoc _ _ _).symm⟩

/-- So does every move. -/
theorem above_of_move
    {session after : Session}
    {id : TaskId}
    {above below : List Frame}
    (h : session.Sound)
    (hmove : Move session after)
    (hstack : (session.task id).stack = above ++ below)
    (hrests : ∀ outcome, session.active = some (id, .after outcome) → above ≠ []) :
    ∃ above', (after.task id).stack = above' ++ below := by
  rcases hactive : session.active with _ | ⟨runner, point⟩
  · exact ⟨above, (stack_of_idle h.steady hactive hmove id).trans hstack⟩
  · rcases eq_step_or_breakOff_of_move h hactive hmove with rfl | rfl
    · by_cases hsame : id = runner
      · subst hsame
        exact above_step h hactive hstack fun outcome hpoint => hrests outcome (hpoint ▸ hactive)
      · exact ⟨above, (congrArg Task.stack (task_step_of_ne h hactive hsame)).trans hstack⟩
    · exact ⟨above, hstack⟩

/-! ### Executing calls -/

theorem Extends.executing
    {own id : CallId}
    {told : List Observation}
    {session after : Session}
    (h : Extends own told session after)
    (hne : id ≠ own)
    (hexecuting : (session.call id).state = .executing) :
    (after.call id).state = .executing := by
  rcases h.state id hne with hsame | ⟨hnew, _⟩
  · exact hsame.trans hexecuting
  · exact absurd (hexecuting.symm.trans hnew) (by decide)

/-- A call that is executing was so before its own body went on. -/
theorem Extends.of_executing
    {own id : CallId}
    {told : List Observation}
    {session after : Session}
    (h : Extends own told session after)
    (hne : id ≠ own)
    (hexecuting : (after.call id).state = .executing) :
    (session.call id).state = .executing := by
  rcases h.state id hne with hsame | ⟨_, hcanceled⟩
  · exact hsame.symm.trans hexecuting
  · exact absurd (hexecuting.symm.trans hcanceled) (by decide)

/-- A call is executing until its own body goes on. -/
theorem executing_of_move
    {session after : Session}
    {id : CallId}
    (h : session.Sound)
    (hmove : Move session after)
    (hexecuting : (session.call id).state = .executing)
    (hrests : ∀ task outcome frame rest, session.active = some (task, .after outcome) →
      (session.task task).stack = frame :: rest → id ≠ frame.call) :
    (after.call id).state = .executing := by
  rcases move_cases h hmove with hturns | ⟨task, own, hactive, hstate, _, rfl⟩ |
    ⟨task, outcome, frame, rest, hactive, hstack, rfl⟩
  · rcases hturns.rests.state_eq_or id with hsame | ⟨hnew, _⟩
    · exact hsame.trans hexecuting
    · exact absurd (hexecuting.symm.trans hnew) (by decide)
  · have hne : id ≠ own := by
      rintro rfl
      exact absurd (hexecuting.symm.trans hstate) (by decide)
    apply (extends_advance _ task own _).executing hne
    rw [(piece_opening h hactive hstate).state]
    exact (extends_opening session own).executing hne hexecuting
  · have hne := hrests task outcome frame rest hactive hstack
    apply (extends_advance _ task frame.call _).executing hne
    rw [(piece_reopening h hactive hstack).state]
    exact hexecuting

/-- The running task has the outcome of a call, and goes on with it from a stack. -/
structure Returns
    (session : Session)
    (id : CallId)
    (task : TaskId)
    (stack : List Frame)
    (outcome : Outcome) : Prop where
  active : session.active = some (task, .after outcome)
  stack : (session.task task).stack = stack
  agrees : Agrees (session.call id) outcome

/-- A task is in the body of a call, above the stack that it came to the call with. -/
structure Hosts
    (session : Session)
    (id : CallId)
    (task : TaskId)
    (stack : List Frame) : Prop where
  executing : (session.call id).state = .executing
  hosted : ∃ above frame, frame.call = id ∧ (session.task task).stack = above ++ frame :: stack

/-- From a piece of its body a call returns, or it stays on the stack. -/
theorem Engaged.returns_or_hosts
    {session : Session}
    {task : TaskId}
    {own : CallId}
    {progress : Progress}
    (h : session.Engaged task own)
    (hfits : progress.Fits own session.calls) :
    (session.advance task own progress).Hosts own task (session.task task).stack ∨
      ∃ outcome, (session.advance task own progress).Returns own task (session.task task).stack
        outcome := by
  rcases h.stack_advance hfits with ⟨outcome, rfl⟩ | ⟨frame, hframe, hstack, hcalls⟩
  · rw [advance_ends]
    refine Or.inr ⟨_, rfl, rfl, ?_⟩
    have hclosed : (session.closing own outcome).call own =
        { session.call own with state := (conclusion (session.call own) outcome).1 } :=
      (Calls.get_modify h.call _ own).trans (if_pos rfl)
    exact hclosed ▸ agrees_conclusion (session.call own) outcome
  · refine Or.inl ⟨?_, [], frame, hframe, hstack⟩
    rw [Session.call, hcalls]
    exact h.executing

/-- A task that comes to a new call executes it, or the call returns at once. -/
theorem hosts_or_returns_step
    {session : Session}
    {id : CallId}
    {task : TaskId}
    (h : session.Sound)
    (hactive : session.active = some (task, .before id))
    (hstate : (session.call id).state = .new) :
    session.step.Hosts id task (session.task task).stack ∨
      ∃ outcome, session.step.Returns id task (session.task task).stack outcome := by
  cases hflag : (session.call id).canceled with
  | true =>
      rw [step_before_of_canceled hactive hstate hflag]
      refine Or.inr ⟨_, rfl, rfl, ?_⟩
      have hrefused : (session.updateCall id fun call => { call with state := .canceled }).call id =
          { session.call id with state := .canceled } :=
        (Calls.get_modify (h.standing task id hactive).1 _ id).trans (if_pos rfl)
      exact hrefused ▸ agrees_refused rfl hflag
  | false =>
      have hpiece := piece_opening h hactive hstate
      have hbody := (engaged_opening h hactive hstate).of_piece hpiece
      have htask := task_eq_of_tasks_eq hpiece.keeps.tasks task
      rw [step_before_of_new hactive hstate hflag]
      have hends := hbody.returns_or_hosts hpiece.fits
      rw [htask] at hends
      exact hends

/-- No two frames belong to one call: the frame of a call that a task hosts is the only one. -/
theorem Hosts.eq_of_top
    {session : Session}
    {id : CallId}
    {task other : TaskId}
    {stack rest : List Frame}
    {frame : Frame}
    (hhosts : session.Hosts id task stack)
    (h : session.Sound)
    (hstack : (session.task other).stack = frame :: rest)
    (hframe : frame.call = id) :
    other = task ∧ rest = stack := by
  obtain ⟨above, own, hown, hhosted⟩ := hhosts.hosted
  have htop : frame ∈ (session.task other).stack := hstack ▸ List.mem_cons_self
  have hmem : own ∈ (session.task task).stack :=
    hhosted ▸ List.mem_append_right above List.mem_cons_self
  have hsame : other = task := by
    by_cases heq : other = task
    · exact heq
    · exact absurd (hframe.trans hown.symm) (h.steady.apart other task heq frame htop own hmem)
  subst hsame
  refine ⟨rfl, ?_⟩
  cases above with
  | nil => exact (List.cons.inj (hstack.symm.trans hhosted)).2
  | cons first others =>
      have hnodup := (h.steady.framesHold other).nodup
      obtain ⟨rfl, _⟩ := List.cons.inj (hstack.symm.trans hhosted)
      rw [hhosted, List.cons_append, List.map_cons] at hnodup
      have hbelow : own ∈ others ++ own :: stack := List.mem_append_right _ List.mem_cons_self
      exact absurd (hframe.trans hown.symm ▸ List.mem_map_of_mem hbelow)
        (List.nodup_cons.mp hnodup).1

/-- The body of a call goes on where it is until the call returns. -/
theorem Hosts.of_move
    {session after : Session}
    {id : CallId}
    {task : TaskId}
    {stack : List Frame}
    (hhosts : session.Hosts id task stack)
    (h : session.Sound)
    (hmove : Move session after) :
    after.Hosts id task stack ∨ ∃ outcome, after.Returns id task stack outcome := by
  by_cases htop : ∃ runner outcome frame rest, session.active = some (runner, .after outcome) ∧
      (session.task runner).stack = frame :: rest ∧ frame.call = id
  · obtain ⟨runner, outcome, frame, rest, hactive, hstack, hframe⟩ := htop
    obtain ⟨rfl, rfl⟩ := hhosts.eq_of_top h hstack hframe
    rcases eq_step_or_breakOff_of_move h hactive hmove with rfl | rfl
    · have hpiece := piece_reopening h hactive hstack
      have hbody := (engaged_reopening h hactive hstack).of_piece hpiece
      have hends := hbody.returns_or_hosts hpiece.fits
      rw [task_eq_of_tasks_eq hpiece.keeps.tasks, task_reopening (h.running runner _ hactive).1,
        if_pos rfl, hframe] at hends
      rw [step_after_cons hactive hstack, hframe]
      exact hends
    · exact Or.inl ⟨hhosts.executing, hhosts.hosted⟩
  · left
    constructor
    · apply executing_of_move h hmove hhosts.executing
      intro runner outcome frame rest hactive hstack hsame
      exact htop ⟨runner, outcome, frame, rest, hactive, hstack, hsame.symm⟩
    · obtain ⟨above, own, hown, hhosted⟩ := hhosts.hosted
      obtain ⟨above', hstack⟩ := above_of_move h hmove hhosted fun outcome hactive => by
        rintro rfl
        exact htop ⟨task, outcome, own, stack, hactive, hhosted, hown⟩
      exact ⟨above', own, hown, hstack⟩

/-- A call comes to be executed when a task has come to it. -/
theorem hosts_of_executing
    {session after : Session}
    {id : CallId}
    (h : session.Sound)
    (hmove : Move session after)
    (hbefore : (session.call id).state ≠ .executing)
    (hexecuting : (after.call id).state = .executing) :
    ∃ task stack, after.Hosts id task stack := by
  rcases move_cases h hmove with hturns | ⟨task, own, hactive, hstate, hflag, rfl⟩ |
    ⟨task, outcome, frame, rest, hactive, hstack, rfl⟩
  · exact absurd ((hturns.extends (id + 1)).of_executing (Nat.ne_of_lt id.lt_succ_self) hexecuting)
      hbefore
  · by_cases hsame : id = own
    · subst hsame
      rw [← step_before_of_new hactive hstate hflag] at hexecuting ⊢
      rcases hosts_or_returns_step h hactive hstate with hhosts | ⟨outcome, hreturns⟩
      · exact ⟨task, _, hhosts⟩
      · have hfinal := hreturns.agrees.isFinal
        rw [hexecuting] at hfinal
        cases hfinal
    · have hmiddle := (extends_advance _ task own _).of_executing hsame hexecuting
      rw [(piece_opening h hactive hstate).state] at hmiddle
      exact absurd ((extends_opening session own).of_executing hsame hmiddle) hbefore
  · by_cases hsame : id = frame.call
    · exact absurd (hsame ▸ (engaged_reopening h hactive hstack).executing) hbefore
    · have hmiddle := (extends_advance _ task frame.call _).of_executing hsame hexecuting
      rw [(piece_reopening h hactive hstack).state] at hmiddle
      exact absurd hmiddle hbefore

/-- Every call that is executing has a task that is in its body. -/
theorem exists_hosts
    {session : Session}
    {id : CallId}
    (h : session.Reachable)
    (hexecuting : (session.call id).state = .executing) :
    ∃ task stack, session.Hosts id task stack := by
  have hboth : session.Sound ∧
      ((session.call id).state = .executing → ∃ task stack, session.Hosts id task stack) := by
    refine h.induct (motive := fun session => session.Sound ∧
      ((session.call id).state = .executing → ∃ task stack, session.Hosts id task stack)) ?_ ?_
    · refine fun backend => ⟨sound_start backend, fun hexecuting => ?_⟩
      exact absurd ((state_of_size_le (Nat.zero_le id)).symm.trans hexecuting) (by decide)
    · rintro session after ⟨hsound, hhosts⟩ hmove
      refine ⟨sound_of_move hsound hmove, fun hexecuting => ?_⟩
      by_cases hbefore : (session.call id).state = .executing
      · obtain ⟨task, stack, hhosted⟩ := hhosts hbefore
        rcases hhosted.of_move hsound hmove with hstays | ⟨outcome, hreturns⟩
        · exact ⟨task, stack, hstays⟩
        · have hfinal := hreturns.agrees.isFinal
          rw [hexecuting] at hfinal
          cases hfinal
      · exact hosts_of_executing hsound hmove hbefore hexecuting
  exact hboth.2 hexecuting

end Session
end TraceArchive
