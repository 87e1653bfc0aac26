import TraceArchive.Proofs.Session.History
import TraceArchive.Proofs.Session.Notices

/-!
# What callbacks are told

A task that was started tells its callback once, when it ends, of what executing its call came to.
One that was canceled before its start ends without a word.

* `GivenUp`, `ComesTo`: a task was canceled before its start, or has executed its call.
* `Standing`, `standing_of_reachable`: how far a task is, and what its callback was told so far.
* `Interrupted`, `interrupted_of_run`: what becomes of a task that is canceled after its start.
* `told_once`: what the callback of a task that has ended was told.
-/

set_option autoImplicit false

namespace TraceArchive

/-- What an audience is told of an outcome: a caller nothing, for he looks at the task himself. -/
def Audience.hears (kind : CallKind) (outcome : Outcome) : Audience → List Outcome
  | .caller => []
  | .callback _ => [Session.announcement kind outcome]

namespace Session

/-- The kind of call that a task executes. -/
def kindOf (session : Session) (id : TaskId) : CallKind :=
  (session.call (session.task id).call).plan.kind

/-- A task was canceled before it was started. -/
def GivenUp (id : TaskId) (session : Session) : Prop :=
  ∃ earlier : Session, earlier.Reachable ∧ earlier.IsIdle ∧ id < earlier.tasks.size ∧
    (earlier.task id).state = .ready .start ∧ Run (earlier.cancelTask id).2 session

/-- A task is about to execute its call, and has nothing else to do. -/
structure Sets (id : TaskId) (first : Session) : Prop where
  reachable : first.Reachable
  active : first.active = some (id, .before (first.task id).call)
  stack : (first.task id).stack = []

/-- A task has executed its call and stands at the outcome. -/
structure ComesTo (id : TaskId) (outcome : Outcome) (first last : Session) : Prop where
  sets : Sets id first
  run : Run first last
  active : last.active = some (id, .after outcome)
  stack : (last.task id).stack = []

/-- What became of a task by the stage that it has come to, and what its audience was told so far:
nothing before the task reports, and then the outcome of its call. -/
inductive Standing (session : Session) (id : TaskId) : TaskStage → Prop
  | unstarted
      (hnotices : session.notices id = []) :
      Standing session id .unstarted
  | givenUp
      (hgivenUp : GivenUp id session)
      (hnotices : session.notices id = []) :
      Standing session id .givenUp
  | underway
      (hbegun : ∃ first, Sets id first ∧ Run first session)
      (hnotices : session.notices id = []) :
      Standing session id .underway
  | dropped
      (hgivenUp : GivenUp id session)
      (hnotices : session.notices id = []) :
      Standing session id .ended
  | reported (outcome : Outcome)
      (hcomes : ∃ first last, ComesTo id outcome first last ∧ Run last.step session)
      (hnotices : session.notices id =
        (session.task id).audience.hears (session.kindOf id) outcome) :
      Standing session id .ended

theorem notices_report
    (session : Session)
    (id : TaskId)
    (outcome : Outcome) :
    (session.report id outcome).notices id =
      (session.task id).audience.hears (session.kindOf id) outcome ++ session.notices id := by
  unfold report
  dsimp only
  cases (session.task id).audience with
  | caller => rfl
  | callback fails =>
      have hself : ∀ outcome, (Observation.notified id outcome).notice? id = some outcome :=
        fun outcome => if_pos rfl
      show List.filterMap _ (_ :: .notified id _ :: session.journal) = _
      rw [List.filterMap_cons_none rfl, List.filterMap_cons_some (hself _)]
      rfl

theorem stage_report
    {session : Session}
    {id : TaskId}
    (hid : id < session.tasks.size)
    (outcome : Outcome) :
    ((session.report id outcome).task id).state.stage = .ended := by
  have hended : ∀ (middle : Session) (ending : Outcome), id < middle.tasks.size →
      ((middle.finish id ending).task id).state.stage = .ended := fun middle ending hlt =>
    congrArg TaskState.stage (state_setState_self hlt (.ended ending))
  unfold report
  dsimp only
  split
  · exact hended session _ hid
  · exact hended _ _ hid

/-- A task executes the same kind of call all along. -/
theorem kindOf_of_move
    {session after : Session}
    {id : TaskId}
    (h : session.Sound)
    (hmove : Move session after)
    (hid : id < session.tasks.size) :
    after.kindOf id = session.kindOf id := by
  have hcall : (after.task id).call = (session.task id).call :=
    congrArg Prod.fst (errand_of_move h hmove hid)
  rw [kindOf, kindOf, hcall]
  exact congrArg Plan.kind ((flags_of_move h hmove).plan _ (h.steady.called id hid))

theorem lt_size_of_stage
    {session : Session}
    {id : TaskId}
    (h : (session.task id).state.stage ≠ .unstarted) :
    id < session.tasks.size := by
  by_cases hid : id < session.tasks.size
  · exact hid
  · rw [task_eq_default (Nat.not_lt.mp hid)] at h
    exact absurd rfl h

/-- What the audience of a task has to hear stays the same. -/
theorem hears_of_move
    {session after : Session}
    {id : TaskId}
    (h : session.Sound)
    (hmove : Move session after)
    (hid : id < session.tasks.size)
    (outcome : Outcome) :
    (after.task id).audience.hears (after.kindOf id) outcome =
      (session.task id).audience.hears (session.kindOf id) outcome := by
  have haudience : (after.task id).audience = (session.task id).audience :=
    congrArg Prod.snd (errand_of_move h hmove hid)
  rw [haudience, kindOf_of_move h hmove hid]

/-- A task that reports has its audience hear the outcome. -/
theorem reports_step
    {session : Session}
    {id : TaskId}
    {outcome : Outcome}
    (h : session.Sound)
    (hactive : session.active = some (id, .after outcome))
    (hstack : (session.task id).stack = []) :
    (session.step.task id).state.stage = .ended ∧
      session.step.notices id =
        (session.step.task id).audience.hears (session.step.kindOf id) outcome ++
          session.notices id := by
  have hid := (h.running id _ hactive).1
  rw [hears_of_move h (Move.step session) hid, step_after_nil hactive hstack]
  exact ⟨stage_report hid outcome, notices_report { session with active := none } id outcome⟩

/-! ### How far a task is -/

/-- A task that has ended has told all that it tells. -/
theorem stage_of_ended
    {session after : Session}
    {id : TaskId}
    (h : session.Sound)
    (hmove : Move session after)
    (hstage : (session.task id).state.stage = .ended) :
    (after.task id).state.stage = .ended ∧ after.notices id = session.notices id := by
  cases fares_of_move h hmove id with
  | stays hsame htold => exact ⟨hsame.trans hstage, htold⟩
  | isGivenUp _ _ hstart => cases (congrArg TaskState.stage hstart).symm.trans hstage
  | starts hstart => cases (congrArg TaskState.stage hstart).symm.trans hstage
  | isDropped habandon => cases (congrArg TaskState.stage habandon).symm.trans hstage
  | reports outcome hactive =>
      cases (congrArg TaskState.stage (h.running id _ hactive).2).symm.trans hstage

/-- A task that was given up tells nothing. -/
theorem stage_of_givenUp
    {session after : Session}
    {id : TaskId}
    (h : session.Sound)
    (hmove : Move session after)
    (hstage : (session.task id).state.stage = .givenUp) :
    ((after.task id).state.stage = .givenUp ∨ (after.task id).state.stage = .ended) ∧
      after.notices id = session.notices id := by
  cases fares_of_move h hmove id with
  | stays hsame htold => exact ⟨Or.inl (hsame.trans hstage), htold⟩
  | isGivenUp _ _ hstart => cases (congrArg TaskState.stage hstart).symm.trans hstage
  | starts hstart => cases (congrArg TaskState.stage hstart).symm.trans hstage
  | isDropped _ hended htold => exact ⟨Or.inr (congrArg TaskState.stage hended), htold⟩
  | reports outcome hactive =>
      cases (congrArg TaskState.stage (h.running id _ hactive).2).symm.trans hstage

theorem GivenUp.of_move
    {session after : Session}
    {id : TaskId}
    (h : GivenUp id session)
    (hmove : Move session after) :
    GivenUp id after := by
  obtain ⟨earlier, hreachable, hidle, hid, hstart, hrun⟩ := h
  exact ⟨earlier, hreachable, hidle, hid, hstart, hrun.tail hmove⟩

/-- A task in whose stage nothing changes. -/
theorem Standing.stays
    {session after : Session}
    {id : TaskId}
    (hstanding : session.Standing id (session.task id).state.stage)
    (h : session.Sound)
    (hmove : Move session after)
    (htold : after.notices id = session.notices id) :
    after.Standing id (session.task id).state.stage := by
  generalize hstage : (session.task id).state.stage = stage at hstanding ⊢
  cases hstanding with
  | unstarted hnotices => exact .unstarted (htold.trans hnotices)
  | givenUp hgivenUp hnotices => exact .givenUp (hgivenUp.of_move hmove) (htold.trans hnotices)
  | underway hbegun hnotices =>
      obtain ⟨first, hsets, hrun⟩ := hbegun
      exact .underway ⟨first, hsets, hrun.tail hmove⟩ (htold.trans hnotices)
  | dropped hgivenUp hnotices => exact .dropped (hgivenUp.of_move hmove) (htold.trans hnotices)
  | reported outcome hcomes hnotices =>
      obtain ⟨first, last, hcomesTo, hrun⟩ := hcomes
      refine .reported outcome ⟨first, last, hcomesTo, hrun.tail hmove⟩ ?_
      rw [hears_of_move h hmove (lt_size_of_stage (by rw [hstage]; decide)), htold, hnotices]

theorem Standing.of_move
    {session after : Session}
    {id : TaskId}
    (hstanding : session.Standing id (session.task id).state.stage)
    (hreachable : session.Reachable)
    (hmove : Move session after) :
    after.Standing id (after.task id).state.stage := by
  have h := sound_of_reachable hreachable
  cases fares_of_move h hmove id with
  | stays hsame htold =>
      rw [hsame]
      exact hstanding.stays h hmove htold
  | isGivenUp hidle hid hstart heq htold =>
      subst heq
      rw [hstart] at hstanding
      rw [state_cancelTask_self hid, hstart]
      cases hstanding with
      | unstarted hnotices =>
          exact .givenUp ⟨session, hreachable, hidle, hid, hstart, .refl⟩ (htold.trans hnotices)
  | starts hstart hactive hstack hrunning htold =>
      rw [hstart] at hstanding
      rw [hrunning]
      cases hstanding with
      | unstarted hnotices =>
          exact .underway ⟨after, ⟨hreachable.of_move hmove, hactive, hstack⟩, .refl⟩
            (htold.trans hnotices)
  | isDropped habandon hended htold =>
      rw [habandon] at hstanding
      rw [hended]
      cases hstanding with
      | givenUp hgivenUp hnotices =>
          exact .dropped (hgivenUp.of_move hmove) (htold.trans hnotices)
  | reports outcome hactive hstack heq =>
      subst heq
      obtain ⟨hended, htold⟩ := reports_step h hactive hstack
      rw [(h.running id _ hactive).2] at hstanding
      rw [hended]
      cases hstanding with
      | underway hbegun hnotices =>
          obtain ⟨first, hsets, hrun⟩ := hbegun
          rw [hnotices, List.append_nil] at htold
          exact .reported outcome ⟨first, session, ⟨hsets, hrun, hactive, hstack⟩, .refl⟩ htold

/-- **How far every task is.** -/
theorem standing_of_reachable
    {session : Session}
    (h : session.Reachable)
    (id : TaskId) :
    session.Standing id (session.task id).state.stage := by
  obtain ⟨backend, hrun⟩ := h
  induction hrun with
  | refl =>
      have hnone : (start backend).task id = default := task_eq_default (Nat.zero_le id)
      rw [hnone]
      exact .unstarted rfl
  | tail hearlier hlast ih => exact ih.of_move ⟨backend, hearlier⟩ hlast

/-- The audience of a task that is not done was told nothing. -/
theorem notices_of_stage
    {session : Session}
    {id : TaskId}
    (h : session.Reachable)
    (hstage : (session.task id).state.stage ≠ .ended) :
    session.notices id = [] := by
  have hstanding := standing_of_reachable h id
  generalize (session.task id).state.stage = stage at hstanding hstage
  cases hstanding with
  | unstarted hnotices => exact hnotices
  | givenUp _ hnotices => exact hnotices
  | underway _ hnotices => exact hnotices
  | dropped => exact absurd rfl hstage
  | reported => exact absurd rfl hstage

/-- A task that was given up ends without a word. -/
theorem notices_of_givenUp
    {session : Session}
    {id : TaskId}
    (h : GivenUp id session) :
    session.notices id = [] := by
  obtain ⟨earlier, hreachable, hidle, hid, hstart, hrun⟩ := h
  have hcanceled := hreachable.of_move (Move.cancelTask earlier id hidle hid)
  have hstage := congrArg TaskState.stage (state_cancelTask_self hid)
  rw [hstart] at hstage
  -- It never starts, so that it cannot come to report.
  have hboth : ((session.task id).state.stage = .givenUp ∨
      (session.task id).state.stage = .ended) ∧ session.notices id = [] := by
    induction hrun with
    | refl =>
        refine ⟨Or.inl hstage, notices_of_stage hcanceled ?_⟩
        rw [hstage]
        decide
    | tail hearlier hlast ih =>
        have hsound := sound_of_reachable (hcanceled.of_run hearlier)
        rcases ih.1 with hgivenUp | hended
        · obtain ⟨hstages, htold⟩ := stage_of_givenUp hsound hlast hgivenUp
          exact ⟨hstages, htold.trans ih.2⟩
        · obtain ⟨hstages, htold⟩ := stage_of_ended hsound hlast hended
          exact ⟨Or.inr hstages, htold.trans ih.2⟩
  exact hboth.2

/-! ### Tasks that are canceled after their start -/

/-- A move in which the running task, if there is one, makes its step. -/
def UnbrokenMove (session after : Session) : Prop :=
  Move session after ∧ (session.IsIdle ∨ after = session.step)

/-- Any number of moves in which no task is broken off. -/
abbrev UnbrokenRun : Session → Session → Prop :=
  Relation.ReflTransGen UnbrokenMove

/-- A task was interrupted: it goes on with the interruption from call to call, and its audience
hears of nothing else. -/
inductive Interrupted (session : Session) (id : TaskId) : Prop
  | waits (hstate : (session.task id).state = .ready .interrupt)
  | goesOn (hactive : session.active = some (id, .after (.error .interrupted)))
  | reported
      (hstage : (session.task id).state.stage = .ended)
      (hnotices : session.notices id =
        (session.task id).audience.hears (session.kindOf id) (.error .interrupted))

/-- A task that is canceled after its start and before its end is interrupted where it waits. -/
theorem interrupt_cancelTask
    {session : Session}
    {id : TaskId}
    (h : session.Reachable)
    (hidle : session.IsIdle)
    (hunderway : (session.task id).state.stage = .underway) :
    ((session.cancelTask id).2.task id).state = .ready .interrupt := by
  have hrunning := not_running_of_isIdle h hidle id
  rw [state_cancelTask_self (lt_size_of_stage (by rw [hunderway]; decide))]
  cases hstate : (session.task id).state with
  | running => exact absurd hstate hrunning
  | ended outcome => cases (congrArg TaskState.stage hstate).symm.trans hunderway
  | waiting place => rfl
  | ready signal =>
      cases signal with
      | start => cases (congrArg TaskState.stage hstate).symm.trans hunderway
      | abandon => cases (congrArg TaskState.stage hstate).symm.trans hunderway
      | proceed => rfl
      | interrupt => rfl

theorem Interrupted.of_move
    {session after : Session}
    {id : TaskId}
    (hinterrupted : session.Interrupted id)
    (hreachable : session.Reachable)
    (hmove : UnbrokenMove session after) :
    after.Interrupted id := by
  have h := sound_of_reachable hreachable
  cases hinterrupted with
  | waits hstate =>
      rcases (waits_of_move h hmove.1 hstate).signal with hwaits | hactive
      · exact .waits hwaits
      · exact .goesOn hactive
  | goesOn hactive =>
      have hstep : after = session.step := hmove.2.resolve_left fun hidle => by
        rw [IsIdle, hactive] at hidle
        cases hidle
      subst hstep
      -- Each body fails with the interruption, up to the last one, and then the task reports it.
      cases hstack : (session.task id).stack with
      | nil =>
          obtain ⟨hended, htold⟩ := reports_step h hactive hstack
          have hnotices : session.notices id = [] := by
            refine notices_of_stage hreachable ?_
            rw [(h.running id _ hactive).2]
            decide
          rw [hnotices, List.append_nil] at htold
          exact .reported hended htold
      | cons frame rest =>
          rw [step_after_cons hactive hstack, (resume_error _ frame .interrupted).1]
          exact .goesOn rfl
  | reported hstage hnotices =>
      obtain ⟨hended, htold⟩ := stage_of_ended h hmove.1 hstage
      refine .reported hended ?_
      rw [hears_of_move h hmove.1 (lt_size_of_stage (by rw [hstage]; decide)), htold, hnotices]

theorem interrupted_of_run
    {session after : Session}
    {id : TaskId}
    (hinterrupted : session.Interrupted id)
    (hreachable : session.Reachable)
    (hrun : UnbrokenRun session after) :
    after.Interrupted id := by
  have hboth : after.Reachable ∧ after.Interrupted id := by
    induction hrun with
    | refl => exact ⟨hreachable, hinterrupted⟩
    | tail _ hlast ih => exact ⟨ih.1.of_move hlast.1, ih.2.of_move ih.1 hlast⟩
  exact hboth.2

/-- **What callbacks are told.**  The callback of a task that has ended was told nothing if and only
if the task was canceled before it started.  Any other was told exactly once, of the outcome that
executing the call came to: a value or a failure as it is, and an interruption as a failure of its
own.  Of that it was told whenever the task was canceled after its start and before its end. -/
theorem told_once
    {session : Session}
    {id : TaskId}
    {fails : Bool}
    {ending : Outcome}
    (h : session.Reachable)
    (haudience : (session.task id).audience = .callback fails)
    (hended : (session.task id).state = .ended ending) :
    (session.notices id = [] ↔ GivenUp id session) ∧
      (¬GivenUp id session → ∃ outcome first last,
        ComesTo id outcome first last ∧ Run last.step session ∧
          session.notices id = [announcement (session.kindOf id) outcome]) ∧
      ∀ earlier : Session, earlier.Reachable → earlier.IsIdle →
        (earlier.task id).state.stage = .underway →
          UnbrokenRun (earlier.cancelTask id).2 session →
            session.notices id = [.error (.canceledTask (session.kindOf id))] := by
  have hstage : (session.task id).state.stage = .ended := congrArg TaskState.stage hended
  have hstanding := standing_of_reachable h id
  rw [hstage] at hstanding
  have hcases : GivenUp id session ∨ ∃ outcome first last,
      ComesTo id outcome first last ∧ Run last.step session ∧
        session.notices id = [announcement (session.kindOf id) outcome] := by
    cases hstanding with
    | dropped hgivenUp => exact Or.inl hgivenUp
    | reported outcome hcomes hnotices =>
        obtain ⟨first, last, hcomesTo, hrun⟩ := hcomes
        rw [haudience] at hnotices
        exact Or.inr ⟨outcome, first, last, hcomesTo, hrun, hnotices⟩
  refine ⟨⟨fun hnone => ?_, notices_of_givenUp⟩, hcases.resolve_left, ?_⟩
  · refine hcases.resolve_right ?_
    rintro ⟨outcome, first, last, _, _, hnotices⟩
    cases hnone.symm.trans hnotices
  · intro earlier hreachable hidle hunderway hrun
    have hid : id < earlier.tasks.size := lt_size_of_stage (by rw [hunderway]; decide)
    have hcanceled := hreachable.of_move (Move.cancelTask earlier id hidle hid)
    have hsignal := interrupt_cancelTask hreachable hidle hunderway
    cases interrupted_of_run (.waits hsignal) hcanceled hrun with
    | waits hstate => cases hstate.symm.trans hended
    | goesOn hactive =>
        cases ((sound_of_reachable h).running id _ hactive).2.symm.trans hended
    | reported _ hnotices =>
        rw [haudience] at hnotices
        exact hnotices

/-- A task with a callback that was canceled before it started. -/
def neverStarted : Session :=
  ((((start (.scripted [])).define "call" (.constant .null)).spawn "task" 0
    (.callback false)).cancelTask 0).2.step

/-- The task has ended, and its callback was told nothing. -/
theorem told_once_neverStarted :
    (neverStarted.task 0).state = .ended (.error .interrupted) ∧ neverStarted.notices 0 = [] := by
  have hdefine := Relation.ReflTransGen.single
    (Move.define (start (.scripted [])) "call" (.constant .null) rfl)
  have hspawn := hdefine.tail (Move.spawn _ "task" 0 (.callback false) rfl (by decide))
  have hcancel := hspawn.tail (Move.cancelTask _ 0 rfl (by decide))
  have hreachable : neverStarted.Reachable := ⟨_, hcancel.tail (Move.step _)⟩
  have hgivenUp : GivenUp 0 neverStarted :=
    ⟨_, ⟨_, hspawn⟩, rfl, by decide, rfl, .single (Move.step _)⟩
  exact ⟨rfl, (told_once hreachable rfl rfl).1.mpr hgivenUp⟩

end Session
end TraceArchive
