import TraceArchive.Proofs.Session.Tasks

/-!
# What is told of tasks

A callback is told of an outcome when its task reports, and at no other time.  Bodies of calls tell
nothing of tasks.

* `remarks`, `notices`: what was told of tasks, and what the callback of a task was told.
* `remarks_begin`, `remarks_resume`, `remarks_advance`: bodies tell nothing of tasks.
* `Fares`, `fares_of_move`: what a move does to a task, and what it tells the callback.
* `errand_of_move`: a task keeps its call and its audience.
-/

set_option autoImplicit false

namespace TraceArchive

/-- The outcome that the callback of a task is told of. -/
def Observation.notice? (id : TaskId) : Observation → Option Outcome
  | .notified task outcome => if task = id then some outcome else none
  | _ => none

/-- How far a task has come. -/
inductive TaskStage where
  | unstarted
  | givenUp
  | underway
  | ended
  deriving DecidableEq

/-- How far a task in a state has come. -/
def TaskState.stage {π ρ : Type} : TaskState π ρ → TaskStage
  | .ready .start => .unstarted
  | .ready .abandon => .givenUp
  | .ended _ => .ended
  | _ => .underway

/-- What a task is for: the call that it executes, and whom it tells of the outcome. -/
def Task.errand (task : Task) : CallId × Audience :=
  (task.call, task.audience)

namespace Session

/-- What was told of tasks, the latest first. -/
def remarks (session : Session) : List Observation :=
  session.journal.filter Observation.isRemark

/-- What the callback of a task was told, the latest first. -/
def notices (session : Session) (id : TaskId) : List Outcome :=
  session.journal.filterMap (Observation.notice? id)

theorem notices_eq (session : Session) (id : TaskId) :
    session.notices id = session.remarks.filterMap (Observation.notice? id) := by
  rw [notices, remarks, List.filterMap_filter]
  refine congrArg (fun told => session.journal.filterMap told) (funext fun entry => ?_)
  cases entry <;> rfl

theorem notices_of_remarks
    {session after : Session}
    (h : after.remarks = session.remarks)
    (id : TaskId) :
    after.notices id = session.notices id := by
  rw [notices_eq, notices_eq, h]

theorem remarks_congr
    {session after : Session}
    (h : after.journal = session.journal) :
    after.remarks = session.remarks :=
  congrArg (List.filter Observation.isRemark) h

theorem remarks_note
    {entry : Observation}
    (h : entry.isRemark = false)
    (session : Session) :
    (session.note entry).remarks = session.remarks := by
  simp [remarks, note, h]

/-! ### Bodies tell nothing of tasks -/

theorem tolerates_remarks :
    Tolerates fun session after => after.remarks = session.remarks :=
  ⟨fun _ => rfl, fun h h' => h'.trans h, fun _ _ => rfl, fun _ h => h,
    fun session _ => remarks_note rfl session, fun _ _ _ => rfl⟩

theorem remarks_passPhase
    {next : Session → Progress × Session}
    (hnext : ∀ session, (next session).2.remarks = session.remarks)
    (session : Session)
    (id : CallId)
    (phase : SearchPhase) :
    (session.passPhase id phase next).2.remarks = session.remarks := by
  have hentered := tolerates_remarks.enterPhase session id phase
  unfold passPhase
  rcases hresult : session.enterPhase id phase with ⟨_ | _, after⟩
  · rw [hresult] at hentered
    exact hentered
  · rw [hresult] at hentered
    exact (hnext after).trans hentered

theorem remarks_issue
    (session : Session)
    (id : CallId)
    (search : Search)
    (frame : Frame) :
    (session.issue id search frame).2.remarks = session.remarks := by
  unfold issue
  dsimp only
  split
  · rfl
  · exact remarks_note rfl (session.add (.search search)).1

theorem remarks_begin (session : Session) (id : CallId) :
    (session.begin id).2.remarks = session.remarks := by
  unfold begin
  dsimp only
  split
  · rfl
  · rfl
  · rfl
  · rfl
  · exact remarks_note rfl { session with searches := session.searches + 1 }
  · exact remarks_passPhase (fun middle => remarks_issue middle id _ _) session id .aggregating

theorem remarks_applyMapper
    (session : Session)
    (id : CallId)
    (mapper : Value → Mapping Value)
    (value : Value) :
    (session.applyMapper id mapper value).2.remarks = session.remarks := by
  have hcancels := (tolerates_remarks.cancelAll (mapper value).cancels _).trans
    (remarks_note (rfl : (Observation.applied id).isRemark = false) session)
  unfold applyMapper
  dsimp only
  split
  · rename_i failure after heq
    rwa [heq] at hcancels
  · rename_i after heq
    rwa [heq] at hcancels

theorem remarks_applyFlatMapper
    (session : Session)
    (id : CallId)
    (mapper : Value → Mapping (Stage Plan))
    (value : Value) :
    (session.applyFlatMapper id mapper value).2.remarks = session.remarks := by
  have hcancels := (tolerates_remarks.cancelAll (mapper value).cancels _).trans
    (remarks_note (rfl : (Observation.applied id).isRemark = false) session)
  unfold applyFlatMapper
  dsimp only
  split
  · rfl
  · split
    · rename_i failure after heq
      rwa [heq] at hcancels
    · rename_i marked heq
      rw [heq] at hcancels
      cases hchosen : (mapper value).result.bind marked.stageCall with
      | error failure => exact hcancels
      | ok chosen =>
          obtain ⟨stage, _, hstage⟩ := exists_stageCall_of_bind hchosen
          exact (remarks_congr (congrArg Session.journal (eq_of_stageCall hstage))).trans hcancels

theorem remarks_fetchListed
    (session : Session)
    (id : CallId)
    (search : TraceSearch)
    (ids : List String) :
    (session.fetchListed id search ids).2.remarks = session.remarks := by
  unfold fetchListed
  split
  · exact remarks_passPhase (fun _ => rfl) session id .done
  · exact remarks_passPhase (fun middle => remarks_issue middle id _ _) session id .fetching

theorem remarks_assembleFetched
    (session : Session)
    (id : CallId)
    (search : TraceSearch)
    (ids : List String)
    (spans : List Span) :
    (session.assembleFetched id search ids spans).2.remarks = session.remarks := by
  refine remarks_passPhase (fun middle => ?_) session id .grouping
  cases Trace.assemble search.criteria search.strict ids spans with
  | error error => rfl
  | ok traces =>
      have hentered := tolerates_remarks.enterPhase middle id .done
      dsimp only
      rcases hresult : middle.enterPhase id .done with ⟨_ | _, after⟩
      · rw [hresult] at hentered
        exact hentered
      · rw [hresult] at hentered
        exact hentered

theorem remarks_resume (session : Session) (frame : Frame) (outcome : Outcome) :
    (session.resume frame outcome).2.remarks = session.remarks := by
  cases outcome with
  | error failure => cases frame <;> rfl
  | ok value =>
      cases frame with
      | leaf call leaf =>
          unfold resume
          dsimp only
          split <;> rfl
      | reply call search reply => rfl
      | mapped call mapper => exact remarks_applyMapper session call mapper value
      | first call mapper => exact remarks_applyFlatMapper session call mapper value
      | next call => rfl
      | listing call search => exact remarks_fetchListed session call search value.texts
      | fetching call search ids =>
          exact remarks_assembleFetched session call search ids value.spans

theorem remarks_advance
    (session : Session)
    (id : TaskId)
    (own : CallId)
    (progress : Progress) :
    (session.advance id own progress).remarks = session.remarks := by
  cases progress with
  | ends outcome => exact remarks_note rfl session
  | executes next frame => rfl
  | waits gate frame =>
      obtain ⟨_, _, _, heq⟩ := exists_advance_waits session id own gate frame
      rw [heq]
      rfl

/-- Nothing is told of tasks in a step but when the running task reports. -/
theorem remarks_step
    {session : Session}
    {id : TaskId}
    {point : Point}
    (hactive : session.active = some (id, point))
    (hreports : ∀ outcome, point = .after outcome → (session.task id).stack ≠ []) :
    session.step.remarks = session.remarks := by
  rcases point with own | outcome
  · by_cases hstate : (session.call own).state = .new
    · cases hflag : (session.call own).canceled with
      | true =>
          rw [step_before_of_canceled hactive hstate hflag]
          rfl
      | false =>
          rw [step_before_of_new hactive hstate hflag, remarks_advance, remarks_begin]
          exact remarks_note rfl _
    · rw [step_before_of_ne_new hactive hstate]
      rfl
  · cases hstack : (session.task id).stack with
    | nil => exact absurd hstack (hreports outcome rfl)
    | cons frame rest =>
        rw [step_after_cons hactive hstack, remarks_advance, remarks_resume]
        rfl

/-! ### What a task is for -/

theorem errand_updateTask
    {change : Task → Task}
    (hchange : ∀ task, (change task).errand = task.errand)
    (session : Session)
    (other id : TaskId) :
    ((session.updateTask other change).task id).errand = (session.task id).errand := by
  by_cases hsame : id = other
  · subst hsame
    by_cases hid : id < session.tasks.size
    · rw [task_updateTask hid, if_pos rfl, hchange]
    · have hnone : session.tasks.size ≤ id := Nat.not_lt.mp hid
      rw [task_eq_default hnone, task_eq_default (Array.size_modify.symm ▸ hnone)]
  · rw [task_updateTask_of_ne hsame]

theorem errand_setState
    (session : Session)
    (other : TaskId)
    (state : TaskState String Outcome)
    (id : TaskId) :
    ((session.updateTask other fun task => { task with state := state }).task id).errand =
      (session.task id).errand := by
  have hchange : ∀ task : Task, { task with state := state }.errand = task.errand := fun _ => rfl
  exact errand_updateTask hchange session other id

theorem errand_advance
    (session : Session)
    (other : TaskId)
    (own : CallId)
    (progress : Progress)
    (id : TaskId) :
    ((session.advance other own progress).task id).errand = (session.task id).errand := by
  have hpushing : ∀ frame, ((session.pushing other frame).task id).errand =
      (session.task id).errand := by
    intro frame
    have hchange : ∀ task : Task, { task with stack := frame :: task.stack }.errand =
        task.errand := fun _ => rfl
    exact errand_updateTask hchange session other id
  cases progress with
  | ends outcome => rfl
  | executes next frame => exact hpushing frame
  | waits gate frame =>
      rcases advance_waits session other own gate frame with heq | ⟨place, heq⟩
      · rw [heq]
        exact hpushing frame
      · rw [heq]
        exact (errand_setState (session.pushing other frame) other (.waiting place) id).trans
          (hpushing frame)

theorem errand_report
    (session : Session)
    (other : TaskId)
    (outcome : Outcome)
    (id : TaskId) :
    ((session.report other outcome).task id).errand = (session.task id).errand := by
  unfold report
  dsimp only
  split
  · exact errand_setState session other _ id
  · exact errand_setState session other _ id

theorem errand_wake
    (session : Session)
    (other id : TaskId) :
    ((session.wake other).task id).errand = (session.task id).errand := by
  have hrunning := errand_setState session other .running id
  unfold wake
  dsimp only
  split
  · exact hrunning
  · exact hrunning
  · exact hrunning
  · exact (errand_setState _ other _ id).trans hrunning
  · rfl

theorem errand_step
    {session : Session}
    (h : session.Sound)
    (id : TaskId) :
    (session.step.task id).errand = (session.task id).errand := by
  rcases hactive : session.active with _ | ⟨other, own | outcome⟩
  · rcases step_of_idle hactive with heq | ⟨other, rest, _, heq⟩
    · rw [heq]
    · rw [heq]
      exact errand_wake { session with ready := rest } other id
  · by_cases hstate : (session.call own).state = .new
    · cases hflag : (session.call own).canceled with
      | true =>
          rw [step_before_of_canceled hactive hstate hflag]
          rfl
      | false =>
          rw [step_before_of_new hactive hstate hflag, errand_advance,
            task_eq_of_tasks_eq (piece_opening h hactive hstate).keeps.tasks]
          rfl
    · rw [step_before_of_ne_new hactive hstate]
      rfl
  · cases hstack : (session.task other).stack with
    | nil =>
        rw [step_after_nil hactive hstack]
        exact errand_report { session with active := none } other outcome id
    | cons frame rest =>
        rw [step_after_cons hactive hstack, errand_advance,
          task_eq_of_tasks_eq (piece_reopening h hactive hstack).keeps.tasks]
        have hchange : ∀ task : Task, { task with stack := rest }.errand = task.errand :=
          fun _ => rfl
        exact errand_updateTask hchange { session with active := none } other id

/-- A task keeps its call and its audience. -/
theorem errand_of_move
    {session after : Session}
    {id : TaskId}
    (h : session.Sound)
    (hmove : Move session after)
    (hid : id < session.tasks.size) :
    (after.task id).errand = (session.task id).errand := by
  cases hmove with
  | step => exact errand_step h id
  | breakOff =>
      unfold breakOff
      split <;> rfl
  | define label plan => rfl
  | map label first mapper => rfl
  | flatMap label first mapper => rfl
  | spawn name call audience => rw [task_spawn, if_neg (Nat.ne_of_lt hid)]
  | cancel call => rfl
  | cancelTask other =>
      unfold cancelTask
      split
      · rfl
      · rfl
      · exact errand_setState session other _ id
      · rfl
      · exact errand_setState session other _ id
      · exact errand_setState session other _ id
  | openGate gate =>
      obtain ⟨_, _, htask⟩ := foldl_proceed (session.gates.waitingAt gate)
        fun other hother => (h.steady.waits_at hother).1
      refine (congrArg Task.errand (htask id)).trans ?_
      split <;> rfl
  | watch phase call => rfl

/-! ### What a move does to a task -/

/-- How a task fares in a move: it stays as far as it is, is given up before its start, starts, is
dropped since it was given up, or reports.  Its callback is told only when it reports. -/
inductive Fares (id : TaskId) (session after : Session) : Prop
  | stays
      (hstage : (after.task id).state.stage = (session.task id).state.stage)
      (hnotices : after.notices id = session.notices id)
  | isGivenUp
      (hidle : session.IsIdle)
      (hid : id < session.tasks.size)
      (hstart : (session.task id).state = .ready .start)
      (heq : after = (session.cancelTask id).2)
      (hnotices : after.notices id = session.notices id)
  | starts
      (hstart : (session.task id).state = .ready .start)
      (hactive : after.active = some (id, .before (after.task id).call))
      (hstack : (after.task id).stack = [])
      (hrunning : (after.task id).state = .running)
      (hnotices : after.notices id = session.notices id)
  | isDropped
      (habandon : (session.task id).state = .ready .abandon)
      (hended : (after.task id).state = .ended (.error .interrupted))
      (hnotices : after.notices id = session.notices id)
  | reports (outcome : Outcome)
      (hactive : session.active = some (id, .after outcome))
      (hstack : (session.task id).stack = [])
      (heq : after = session.step)

/-- A task that makes a step with its body goes on, or waits. -/
theorem stage_advance
    {session : Session}
    {id : TaskId}
    (hid : id < session.tasks.size)
    (hrunning : (session.task id).state = .running)
    (own : CallId)
    (progress : Progress) :
    ((session.advance id own progress).task id).state.stage = .underway := by
  have hpushing : ∀ frame, ((session.pushing id frame).task id).state = .running := by
    intro frame
    have htask : (session.pushing id frame).task id =
        { session.task id with stack := frame :: (session.task id).stack } :=
      (task_updateTask hid _ id).trans (if_pos rfl)
    rw [htask]
    exact hrunning
  cases progress with
  | ends outcome => exact congrArg TaskState.stage hrunning
  | executes next frame => exact congrArg TaskState.stage (hpushing frame)
  | waits gate frame =>
      rcases advance_waits session id own gate frame with heq | ⟨place, heq⟩
      · rw [heq]
        exact congrArg TaskState.stage (hpushing frame)
      · have hlt : id < (session.pushing id frame).tasks.size :=
          Nat.lt_of_lt_of_eq hid Array.size_modify.symm
        have hwaiting : (((session.pushing id frame).parking id place).task id).state =
            .waiting place := state_setState_self hlt _
        rw [heq]
        exact congrArg TaskState.stage hwaiting

/-- So does the running task in a step, unless it reports. -/
theorem stage_step
    {session : Session}
    {id : TaskId}
    {point : Point}
    (h : session.Sound)
    (hactive : session.active = some (id, point))
    (hreports : ∀ outcome, point = .after outcome → (session.task id).stack ≠ []) :
    (session.step.task id).state.stage = .underway := by
  obtain ⟨hid, hrunning⟩ := h.running id point hactive
  rcases point with own | outcome
  · by_cases hstate : (session.call own).state = .new
    · cases hflag : (session.call own).canceled with
      | true =>
          rw [step_before_of_canceled hactive hstate hflag]
          exact congrArg TaskState.stage hrunning
      | false =>
          have hpiece := piece_opening h hactive hstate
          rw [step_before_of_new hactive hstate hflag]
          refine stage_advance (hpiece.keeps.tasks ▸ hid) ?_ own _
          rw [task_eq_of_tasks_eq hpiece.keeps.tasks]
          exact hrunning
    · rw [step_before_of_ne_new hactive hstate]
      exact congrArg TaskState.stage hrunning
  · cases hstack : (session.task id).stack with
    | nil => exact absurd hstack (hreports outcome rfl)
    | cons frame rest =>
        have hpiece := piece_reopening h hactive hstack
        have hlt : id < (session.reopening id rest).tasks.size :=
          Nat.lt_of_lt_of_eq hid Array.size_modify.symm
        rw [step_after_cons hactive hstack]
        refine stage_advance (hpiece.keeps.tasks ▸ hlt) ?_ frame.call _
        rw [task_eq_of_tasks_eq hpiece.keeps.tasks, task_reopening hid, if_pos rfl]
        exact hrunning

/-- The callback of a task is told nothing when another one reports. -/
theorem notices_report_of_ne
    {id other : TaskId}
    (hne : id ≠ other)
    (session : Session)
    (outcome : Outcome) :
    (session.report other outcome).notices id = session.notices id := by
  unfold report
  dsimp only
  split
  · rfl
  · have hother : ∀ outcome, (Observation.notified other outcome).notice? id = none :=
      fun outcome => if_neg (Ne.symm hne)
    show List.filterMap _ (_ :: .notified other _ :: session.journal) = _
    rw [List.filterMap_cons_none rfl, List.filterMap_cons_none (hother _)]
    rfl

theorem notices_wake
    (session : Session)
    (other id : TaskId) :
    (session.wake other).notices id = session.notices id := by
  unfold wake
  dsimp only
  split <;> rfl

theorem task_wake_of_ne
    {id other : TaskId}
    (hne : id ≠ other)
    (session : Session) :
    (session.wake other).task id = session.task id := by
  unfold wake
  dsimp only
  split
  · exact task_updateTask_of_ne hne _
  · exact task_updateTask_of_ne hne _
  · exact task_updateTask_of_ne hne _
  · exact (task_updateTask_of_ne hne _).trans (task_updateTask_of_ne hne _)
  · rfl

theorem fares_of_task_eq
    {session after : Session}
    {id : TaskId}
    (htask : after.task id = session.task id)
    (hnotices : after.notices id = session.notices id) :
    Fares id session after :=
  .stays (by rw [htask]) hnotices

/-- How a task fares when it is woken. -/
theorem fares_wake
    {session : Session}
    {id : TaskId}
    (h : session.Steady)
    (hid : id < session.tasks.size)
    (rest : List TaskId) :
    Fares id session (Session.wake { session with ready := rest } id) := by
  have hnotices := notices_wake { session with ready := rest } id id
  have htask : Session.task { session with ready := rest } = session.task := rfl
  have hrunning := state_setState_self
    (show id < (Session.tasks { session with ready := rest }).size from hid) .running
  have hunderway := congrArg TaskState.stage hrunning
  have hpoised := h.poised id
  unfold wake at hnotices ⊢
  dsimp only at hnotices ⊢
  rw [htask] at hnotices ⊢
  cases hstate : (session.task id).state with
  | running => exact .stays rfl rfl
  | waiting place => exact .stays rfl rfl
  | ended outcome => exact .stays rfl rfl
  | ready signal =>
      rw [hstate] at hnotices
      cases signal with
      | start =>
          have herrand := errand_setState { session with ready := rest } id .running id
          have hcall := congrArg Prod.fst herrand
          rw [Task.IsPoised, hstate] at hpoised
          exact .starts hstate (congrArg (fun call => some (id, Point.before call)) hcall.symm)
            ((stack_setState _ id .running id).trans hpoised) hrunning hnotices
      | proceed => exact .stays (hunderway.trans (by rw [hstate]; rfl)) hnotices
      | interrupt => exact .stays (hunderway.trans (by rw [hstate]; rfl)) hnotices
      | abandon =>
          exact .isDropped hstate
            (state_setState_self (Nat.lt_of_lt_of_eq hid Array.size_modify.symm) _) hnotices

theorem fares_step
    {session : Session}
    (h : session.Sound)
    (id : TaskId) :
    Fares id session session.step := by
  rcases hactive : session.active with _ | ⟨runner, point⟩
  · rcases step_of_idle hactive with heq | ⟨other, rest, hready, heq⟩
    · rw [heq]
      exact .stays rfl rfl
    · rw [heq]
      by_cases hsame : id = other
      · subst hsame
        exact fares_wake h.steady (h.steady.ready id (hready ▸ List.mem_cons_self)) rest
      · exact fares_of_task_eq (task_wake_of_ne hsame _) (notices_wake _ other id)
  · by_cases hsame : id = runner
    · subst hsame
      by_cases hreports : ∃ outcome, point = .after outcome ∧ (session.task id).stack = []
      · obtain ⟨outcome, rfl, hstack⟩ := hreports
        exact .reports outcome hactive hstack rfl
      · have hgoesOn : ∀ outcome, point = .after outcome → (session.task id).stack ≠ [] :=
          fun outcome hpoint hstack => hreports ⟨outcome, hpoint, hstack⟩
        have hstage : (session.task id).state.stage = .underway :=
          congrArg TaskState.stage (h.running id point hactive).2
        exact .stays ((stage_step h hactive hgoesOn).trans hstage.symm)
          (notices_of_remarks (remarks_step hactive hgoesOn) id)
    · refine fares_of_task_eq (task_step_of_ne h hactive hsame) ?_
      by_cases hreports : ∃ outcome, point = .after outcome ∧ (session.task runner).stack = []
      · obtain ⟨outcome, rfl, hstack⟩ := hreports
        rw [step_after_nil hactive hstack]
        exact notices_report_of_ne hsame { session with active := none } outcome
      · exact notices_of_remarks (remarks_step hactive fun outcome hpoint hstack =>
          hreports ⟨outcome, hpoint, hstack⟩) id

/-- What becomes of a task that is canceled. -/
theorem state_cancelTask_self
    {session : Session}
    {id : TaskId}
    (hid : id < session.tasks.size) :
    ((session.cancelTask id).2.task id).state =
      match (session.task id).state with
      | .ended outcome => .ended outcome
      | .running => .running
      | .ready .start => .ready .abandon
      | .ready .abandon => .ready .abandon
      | .ready _ => .ready .interrupt
      | .waiting _ => .ready .interrupt := by
  cases hstate : (session.task id).state with
  | running =>
      unfold cancelTask
      rw [hstate]
      exact hstate
  | ended outcome =>
      unfold cancelTask
      rw [hstate]
      exact hstate
  | waiting place =>
      unfold cancelTask
      rw [hstate]
      exact state_setState_self hid (.ready .interrupt)
  | ready signal =>
      unfold cancelTask
      rw [hstate]
      cases signal with
      | start => exact state_setState_self hid (.ready .abandon)
      | abandon => exact hstate
      | proceed => exact state_setState_self hid (.ready .interrupt)
      | interrupt => exact state_setState_self hid (.ready .interrupt)

/-- How a task fares when a task is canceled. -/
theorem fares_cancelTask
    {session : Session}
    {other : TaskId}
    (hidle : session.IsIdle)
    (hother : other < session.tasks.size)
    (id : TaskId) :
    Fares id session (session.cancelTask other).2 := by
  have hnotices : (session.cancelTask other).2.notices id = session.notices id := by
    unfold cancelTask
    split <;> rfl
  by_cases hsame : id = other
  · subst hsame
    have hself := state_cancelTask_self hother
    cases hstate : (session.task id).state with
    | running => exact .stays (by rw [hself, hstate]) hnotices
    | ended outcome => exact .stays (by rw [hself, hstate]) hnotices
    | waiting place => exact .stays (by rw [hself, hstate]; rfl) hnotices
    | ready signal =>
        cases signal with
        | start => exact .isGivenUp hidle hother hstate rfl hnotices
        | abandon => exact .stays (by rw [hself, hstate]) hnotices
        | proceed => exact .stays (by rw [hself, hstate]; rfl) hnotices
        | interrupt => exact .stays (by rw [hself, hstate]) hnotices
  · refine fares_of_task_eq ?_ hnotices
    unfold cancelTask
    split
    · rfl
    · rfl
    · exact task_updateTask_of_ne hsame _
    · rfl
    · exact task_updateTask_of_ne hsame _
    · exact task_updateTask_of_ne hsame _

/-- How a task fares when a gate is opened. -/
theorem fares_openGate
    {session : Session}
    (h : session.Steady)
    (gate : String)
    (id : TaskId) :
    Fares id session (session.openGate gate) := by
  obtain ⟨heq, _, htask⟩ := foldl_proceed (session.gates.waitingAt gate)
    fun other hother => (h.waits_at hother).1
  have hget : (session.openGate gate).task id = _ := htask id
  have hjournal := congrArg Session.journal heq
  have hnotices : (session.openGate gate).notices id = session.notices id :=
    congrArg (List.filterMap (Observation.notice? id)) hjournal
  by_cases hmem : id ∈ session.gates.waitingAt gate
  · rw [if_pos hmem] at hget
    exact .stays (by rw [hget, (h.waits_at hmem).2]; rfl) hnotices
  · rw [if_neg hmem] at hget
    exact fares_of_task_eq hget hnotices

/-- **How a task fares in a move.** -/
theorem fares_of_move
    {session after : Session}
    (h : session.Sound)
    (hmove : Move session after)
    (id : TaskId) :
    Fares id session after := by
  cases hmove with
  | step => exact fares_step h id
  | breakOff =>
      unfold breakOff
      split
      · exact .stays rfl rfl
      · exact .stays rfl rfl
  | define label plan => exact .stays rfl rfl
  | map label first mapper => exact .stays rfl rfl
  | flatMap label first mapper => exact .stays rfl rfl
  | spawn name call audience =>
      refine .stays ?_ rfl
      rw [task_spawn]
      split
      · rename_i hnew
        rw [task_eq_default (Nat.le_of_eq hnew.symm)]
        rfl
      · rfl
  | cancel call => exact .stays rfl rfl
  | cancelTask other hidle hother => exact fares_cancelTask hidle hother id
  | openGate gate => exact fares_openGate h.steady gate id
  | watch phase call => exact .stays rfl rfl

end Session
end TraceArchive
