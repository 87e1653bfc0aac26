import TraceArchive.Proofs.Session.Turns

/-!
# What moves do to the tasks

One task runs at a time, and the others are left alone meanwhile.

* `eq_step_or_breakOff_of_move`, `task_step_of_ne`: while a task is running, only that one moves on.
* `waits_of_move`: a task that was interrupted waits until it goes on with that.
* `Solitary`, `not_running_of_isIdle`: no task is running but the one that the session stands at.
-/

set_option autoImplicit false

namespace TraceArchive
namespace Session

theorem state_setState_self
    {session : Session}
    {id : TaskId}
    (hid : id < session.tasks.size)
    (state : TaskState String Outcome) :
    ((session.updateTask id fun task => { task with state := state }).task id).state = state :=
  congrArg Task.state ((task_updateTask hid _ id).trans (if_pos rfl))

theorem state_setState_of_ne
    {id other : TaskId}
    (hne : other ≠ id)
    (session : Session)
    (state : TaskState String Outcome) :
    ((session.updateTask id fun task => { task with state := state }).task other).state =
      (session.task other).state :=
  congrArg Task.state (task_updateTask_of_ne hne _)

/-- A running task makes a step next, or is broken off. -/
theorem eq_step_or_breakOff_of_move
    {session after : Session}
    {id : TaskId}
    {point : Point}
    (h : session.Sound)
    (hactive : session.active = some (id, point))
    (hmove : Move session after) :
    after = session.step ∨ after = session.goOn id (.after (.error .endless)) := by
  rcases outside_of_move h.steady hmove with rfl | rfl | houtside
  · exact Or.inl rfl
  · right
    rw [breakOff, hactive]
  · have hidle := houtside.idle
    rw [IsIdle, hactive] at hidle
    cases hidle

/-- The other tasks are left alone while a task makes a step. -/
theorem task_step_of_ne
    {session : Session}
    {id other : TaskId}
    {point : Point}
    (h : session.Sound)
    (hactive : session.active = some (id, point))
    (hne : other ≠ id) :
    session.step.task other = session.task other := by
  have hadvance : ∀ (middle : Session) (own : CallId) (progress : Progress),
      (middle.advance id own progress).task other = middle.task other := by
    intro middle own progress
    cases progress with
    | ends outcome => rfl
    | executes next frame => exact task_updateTask_of_ne hne _
    | waits gate frame =>
        rcases advance_waits middle id own gate frame with heq | ⟨place, heq⟩
        · rw [heq]
          exact task_updateTask_of_ne hne _
        · rw [heq]
          exact (task_updateTask_of_ne hne _).trans (task_updateTask_of_ne hne _)
  rcases point with own | outcome
  · by_cases hstate : (session.call own).state = .new
    · cases hflag : (session.call own).canceled with
      | true =>
          rw [step_before_of_canceled hactive hstate hflag]
          rfl
      | false =>
          rw [step_before_of_new hactive hstate hflag, hadvance,
            task_eq_of_tasks_eq (piece_opening h hactive hstate).keeps.tasks]
          rfl
    · rw [step_before_of_ne_new hactive hstate]
      rfl
  · cases hstack : (session.task id).stack with
    | nil =>
        rw [step_after_nil hactive hstack]
        unfold report
        dsimp only
        split
        · exact task_updateTask_of_ne hne _
        · exact task_updateTask_of_ne hne _
    | cons frame rest =>
        rw [step_after_cons hactive hstack, hadvance,
          task_eq_of_tasks_eq (piece_reopening h hactive hstack).keeps.tasks]
        exact task_updateTask_of_ne hne _

/-! ### Tasks that were interrupted -/

/-- A task that was interrupted keeps its stack until it goes on with the interruption. -/
structure Waits (session after : Session) (id : TaskId) : Prop where
  stack : (after.task id).stack = (session.task id).stack
  signal : (after.task id).state = .ready .interrupt ∨
    after.active = some (id, .after (.error .interrupted))

theorem waits_of_task_eq
    {session after : Session}
    {id : TaskId}
    (hstate : (session.task id).state = .ready .interrupt)
    (htask : after.task id = session.task id) :
    Waits session after id :=
  ⟨congrArg Task.stack htask, Or.inl ((congrArg Task.state htask).trans hstate)⟩

theorem lt_size_of_interrupt
    {session : Session}
    {id : TaskId}
    (h : (session.task id).state = .ready .interrupt) :
    id < session.tasks.size := by
  by_cases hid : id < session.tasks.size
  · exact hid
  · rw [task_eq_default (Nat.not_lt.mp hid)] at h
    cases h

theorem waits_step
    {session : Session}
    {id : TaskId}
    (h : session.Sound)
    (hstate : (session.task id).state = .ready .interrupt) :
    Waits session session.step id := by
  rcases hactive : session.active with _ | ⟨other, point⟩
  · rcases step_of_idle hactive with heq | ⟨other, rest, _, heq⟩
    · exact waits_of_task_eq hstate (by rw [heq])
    · rw [heq]
      have htask : Session.task { session with ready := rest } = session.task := rfl
      by_cases hsame : id = other
      · subst hsame
        unfold wake
        dsimp only
        rw [htask, hstate]
        exact ⟨stack_setState session id .running id, Or.inr rfl⟩
      · refine waits_of_task_eq hstate ?_
        unfold wake
        dsimp only
        rw [htask]
        split
        · exact task_updateTask_of_ne hsame _
        · exact task_updateTask_of_ne hsame _
        · exact task_updateTask_of_ne hsame _
        · exact (task_updateTask_of_ne hsame _).trans (task_updateTask_of_ne hsame _)
        · rfl
  · refine waits_of_task_eq hstate (task_step_of_ne h hactive ?_)
    rintro rfl
    rw [(h.running id point hactive).2] at hstate
    cases hstate

theorem waits_cancelTask
    {session : Session}
    {id : TaskId}
    (hstate : (session.task id).state = .ready .interrupt)
    (other : TaskId) :
    Waits session (session.cancelTask other).2 id := by
  by_cases hsame : id = other
  · subst hsame
    unfold cancelTask
    rw [hstate]
    exact ⟨stack_setState session id _ id,
      Or.inl (state_setState_self (lt_size_of_interrupt hstate) _)⟩
  · refine waits_of_task_eq hstate ?_
    unfold cancelTask
    split
    · rfl
    · rfl
    · exact task_updateTask_of_ne hsame _
    · rfl
    · exact task_updateTask_of_ne hsame _
    · exact task_updateTask_of_ne hsame _

/-- Nothing else can happen to a task that was interrupted. -/
theorem waits_of_move
    {session after : Session}
    {id : TaskId}
    (h : session.Sound)
    (hmove : Move session after)
    (hstate : (session.task id).state = .ready .interrupt) :
    Waits session after id := by
  cases hmove with
  | step => exact waits_step h hstate
  | breakOff =>
      refine waits_of_task_eq hstate ?_
      unfold breakOff
      split <;> rfl
  | define label plan hidle => exact waits_of_task_eq hstate rfl
  | map label first mapper hidle hfirst => exact waits_of_task_eq hstate rfl
  | flatMap label first mapper hidle hfirst => exact waits_of_task_eq hstate rfl
  | spawn name call audience hidle hcall =>
      refine waits_of_task_eq hstate ?_
      rw [task_spawn, if_neg (Nat.ne_of_lt (lt_size_of_interrupt hstate))]
  | cancel call hidle hcall => exact waits_of_task_eq hstate rfl
  | cancelTask other hidle hother => exact waits_cancelTask hstate other
  | openGate gate hidle =>
      obtain ⟨_, _, htask⟩ := foldl_proceed (session.gates.waitingAt gate)
        fun other hother => (h.steady.waits_at hother).1
      refine waits_of_task_eq hstate ((htask id).trans (if_neg fun hmem => ?_))
      rw [(h.steady.waits_at hmem).2] at hstate
      cases hstate
  | watch phase call hidle hcall => exact waits_of_task_eq hstate rfl

/-! ### The task that is running -/

/-- Only the task that a session stands at is running. -/
def Solitary (session : Session) : Prop :=
  ∀ id, (session.task id).state = .running → ∃ point, session.active = some (id, point)

theorem Solitary.not_running
    {session : Session}
    (h : session.Solitary)
    (hidle : session.IsIdle)
    (id : TaskId) :
    (session.task id).state ≠ .running := by
  intro hrunning
  obtain ⟨point, hactive⟩ := h id hrunning
  rw [IsIdle, hactive] at hidle
  cases hidle

/-- While one task was running, only that one can be. -/
theorem solitary_of_active
    {session after : Session}
    {id : TaskId}
    {point : Point}
    (h : session.Solitary)
    (hactive : session.active = some (id, point))
    (hother : ∀ other, other ≠ id → after.task other = session.task other)
    (hself : (after.task id).state = .running → ∃ point, after.active = some (id, point)) :
    after.Solitary := by
  intro other hrunning
  by_cases hsame : other = id
  · exact hsame ▸ hself (hsame ▸ hrunning)
  · rw [hother other hsame] at hrunning
    obtain ⟨_, hearlier⟩ := h other hrunning
    rw [hactive] at hearlier
    cases hearlier
    exact absurd rfl hsame

/-- From a piece of a body, the task goes on running, or waits. -/
theorem active_advance
    {session : Session}
    {id : TaskId}
    (hid : id < session.tasks.size)
    (own : CallId)
    (progress : Progress)
    (hrunning : ((session.advance id own progress).task id).state = .running) :
    ∃ point, (session.advance id own progress).active = some (id, point) := by
  cases progress with
  | ends outcome => exact ⟨_, rfl⟩
  | executes next frame => exact ⟨_, rfl⟩
  | waits gate frame =>
      rcases advance_waits session id own gate frame with heq | ⟨place, heq⟩
      · rw [heq]
        exact ⟨_, rfl⟩
      · have hlt : id < (session.pushing id frame).tasks.size :=
          Nat.lt_of_lt_of_eq hid Array.size_modify.symm
        have htask : ((session.pushing id frame).parking id place).task id =
            { (session.pushing id frame).task id with state := .waiting place } :=
          (task_updateTask hlt _ id).trans (if_pos rfl)
        rw [heq, htask] at hrunning
        cases hrunning

theorem active_step
    {session : Session}
    {id : TaskId}
    {point : Point}
    (h : session.Sound)
    (hactive : session.active = some (id, point))
    (hrunning : (session.step.task id).state = .running) :
    ∃ point, session.step.active = some (id, point) := by
  rcases point with own | outcome
  · by_cases hstate : (session.call own).state = .new
    · cases hflag : (session.call own).canceled with
      | true =>
          rw [step_before_of_canceled hactive hstate hflag]
          exact ⟨_, rfl⟩
      | false =>
          rw [step_before_of_new hactive hstate hflag] at hrunning ⊢
          have hpiece := piece_opening h hactive hstate
          exact active_advance (hpiece.keeps.tasks ▸ (h.running id _ hactive).1) own _ hrunning
    · rw [step_before_of_ne_new hactive hstate]
      exact ⟨_, rfl⟩
  · cases hstack : (session.task id).stack with
    | nil =>
        rw [step_after_nil hactive hstack] at hrunning
        have hended : ∀ outcome, ((session.finish id outcome).task id).state = .ended outcome :=
          fun outcome => state_setState_self (h.running id _ hactive).1 _
        unfold report at hrunning
        dsimp only at hrunning
        split at hrunning
        · cases (hended _).symm.trans hrunning
        · cases (hended _).symm.trans hrunning
    | cons frame rest =>
        rw [step_after_cons hactive hstack] at hrunning ⊢
        have hpiece := piece_reopening h hactive hstack
        have hlt : id < (session.reopening id rest).tasks.size :=
          Nat.lt_of_lt_of_eq (h.running id _ hactive).1 Array.size_modify.symm
        exact active_advance (hpiece.keeps.tasks ▸ hlt) frame.call _ hrunning

/-- The next task that is woken is the only one that is running. -/
theorem solitary_wake
    {session : Session}
    {id : TaskId}
    (h : session.Solitary)
    (hidle : session.IsIdle)
    (hid : id < session.tasks.size) :
    (session.wake id).Solitary := by
  have hother : ∀ other, other ≠ id → ((session.updateTask id fun task =>
      { task with state := .running }).task other).state ≠ .running := fun other hne =>
    (state_setState_of_ne hne session .running).symm ▸ h.not_running hidle other
  have hgoOn : ∀ point, ((session.updateTask id fun task =>
      { task with state := .running }).goOn id point).Solitary := by
    intro point other hrunning
    by_cases hsame : other = id
    · exact ⟨point, hsame ▸ rfl⟩
    · exact absurd hrunning (hother other hsame)
  unfold wake
  dsimp only
  split
  · exact hgoOn _
  · exact hgoOn _
  · exact hgoOn _
  · intro other hrunning
    by_cases hsame : other = id
    · subst hsame
      have hlt : other < (session.updateTask other fun task =>
          { task with state := .running }).tasks.size :=
        Nat.lt_of_lt_of_eq hid Array.size_modify.symm
      cases (state_setState_self hlt _).symm.trans hrunning
    · exact absurd ((state_setState_of_ne hsame _ _).symm.trans hrunning) (hother other hsame)
  · exact h

/-- What happens from outside sets no task running. -/
theorem task_of_outside
    {session after : Session}
    (h : session.Steady)
    (hmove : Move session after)
    (hidle : session.IsIdle)
    (hstep : after ≠ session.step)
    (id : TaskId) :
    after.task id = session.task id ∨ (after.task id).state ≠ .running := by
  have hready : ∀ (other : TaskId) (signal : Signal),
      (session.updateTask other fun task => { task with state := .ready signal }).task id =
          session.task id ∨
        ((session.updateTask other fun task => { task with state := .ready signal }).task
          id).state ≠ .running := by
    intro other signal
    by_cases hsame : id = other
    · subst hsame
      by_cases hid : id < session.tasks.size
      · right
        rw [state_setState_self hid]
        exact fun hrunning => by cases hrunning
      · left
        rw [task_eq_default (Nat.not_lt.mp hid)]
        exact task_eq_default (Array.size_modify.symm ▸ Nat.not_lt.mp hid)
    · exact Or.inl (task_updateTask_of_ne hsame _)
  cases hmove with
  | step => exact absurd rfl hstep
  | breakOff =>
      left
      rw [breakOff, hidle]
  | define label plan => exact Or.inl rfl
  | map label first mapper => exact Or.inl rfl
  | flatMap label first mapper => exact Or.inl rfl
  | spawn name call audience =>
      rw [task_spawn]
      split
      · exact Or.inr fun hrunning => by cases hrunning
      · exact Or.inl rfl
  | cancel call => exact Or.inl rfl
  | cancelTask other =>
      unfold cancelTask
      split
      · exact Or.inl rfl
      · exact Or.inl rfl
      · exact hready other .abandon
      · exact Or.inl rfl
      · exact hready other .interrupt
      · exact hready other .interrupt
  | openGate gate =>
      obtain ⟨_, _, htask⟩ := foldl_proceed (session.gates.waitingAt gate)
        fun other hother => (h.waits_at hother).1
      have hget : (session.openGate gate).task id = _ := htask id
      rw [hget]
      split
      · exact Or.inr fun hrunning => by cases hrunning
      · exact Or.inl rfl
  | watch phase call => exact Or.inl rfl

theorem solitary_of_move
    {session after : Session}
    (hsolitary : session.Solitary)
    (h : session.Sound)
    (hmove : Move session after) :
    after.Solitary := by
  rcases hactive : session.active with _ | ⟨id, point⟩
  · by_cases hstep : after = session.step
    · rcases step_of_idle hactive with heq | ⟨id, rest, hready, heq⟩
      · exact hstep.trans heq ▸ hsolitary
      · have hid : id < session.tasks.size := h.steady.ready id (hready ▸ List.mem_cons_self)
        have hpopped : Solitary { session with ready := rest } := hsolitary
        exact hstep.trans heq ▸ solitary_wake hpopped hactive hid
    · intro id hrunning
      rcases task_of_outside h.steady hmove hactive hstep id with hsame | hready
      · exact absurd (hsame ▸ hrunning) (hsolitary.not_running hactive id)
      · exact absurd hrunning hready
  · rcases eq_step_or_breakOff_of_move h hactive hmove with rfl | rfl
    · exact solitary_of_active hsolitary hactive (fun other => task_step_of_ne h hactive)
        (active_step h hactive)
    · exact solitary_of_active hsolitary hactive (fun other _ => rfl) fun _ => ⟨_, rfl⟩

theorem solitary_of_reachable
    {session : Session}
    (h : session.Reachable) :
    session.Solitary := by
  have hboth : session.Sound ∧ session.Solitary := by
    refine h.induct (motive := fun session => session.Sound ∧ session.Solitary) ?_ ?_
    · refine fun backend => ⟨sound_start backend, fun id hrunning => ?_⟩
      have hdefault : (start backend).task id = default := by simp [task, start]
      rw [hdefault] at hrunning
      cases hrunning
    · rintro session after ⟨hsound, hsolitary⟩ hmove
      exact ⟨sound_of_move hsound hmove, solitary_of_move hsolitary hsound hmove⟩
  exact hboth.2

/-- While no task makes a step, none is running. -/
theorem not_running_of_isIdle
    {session : Session}
    (h : session.Reachable)
    (hidle : session.IsIdle)
    (id : TaskId) :
    (session.task id).state ≠ .running :=
  (solitary_of_reachable h).not_running hidle id

end Session
end TraceArchive
