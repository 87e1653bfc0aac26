import TraceArchive.Proofs.Session.Soundness

/-!
# Moves keep the stacks in order

* `step_before_of_canceled`, `step_before_of_new`, `step_after_nil`, `step_after_cons`: the steps of
  the running task.
* `sound_of_reachable`: every reachable session is sound.
-/

set_option autoImplicit false

namespace TraceArchive
namespace Session

/-! ### The steps of the running task -/

theorem step_before_of_ne_new
    {session : Session}
    {id : TaskId}
    {own : CallId}
    (hactive : session.active = some (id, .before own))
    (hstate : (session.call own).state ≠ .new) :
    session.step =
      session.goOn id (.after (.error (.alreadyExecuted (session.call own).plan.kind))) := by
  rw [step, hactive]
  exact if_pos hstate

theorem step_before_of_canceled
    {session : Session}
    {id : TaskId}
    {own : CallId}
    (hactive : session.active = some (id, .before own))
    (hstate : (session.call own).state = .new)
    (hflag : (session.call own).canceled = true) :
    session.step =
      (session.updateCall own fun call => { call with state := .canceled }).goOn id
        (.after (.error (.canceledBefore (session.call own).plan.kind))) := by
  rw [step, hactive]
  exact (if_neg (not_not_intro hstate)).trans (if_pos hflag)

/-- The session in which the body of a call starts. -/
def opening (session : Session) (own : CallId) : Session :=
  ({ session with active := none }.updateCall own fun call => { call with state := .executing }).note
    (.began own)

theorem step_before_of_new
    {session : Session}
    {id : TaskId}
    {own : CallId}
    (hactive : session.active = some (id, .before own))
    (hstate : (session.call own).state = .new)
    (hflag : (session.call own).canceled = false) :
    session.step =
      ((session.opening own).begin own).2.advance id own ((session.opening own).begin own).1 := by
  rw [step, hactive]
  exact (if_neg (not_not_intro hstate)).trans (if_neg (by simpa [call] using hflag))

theorem step_after_nil
    {session : Session}
    {id : TaskId}
    {outcome : Outcome}
    (hactive : session.active = some (id, .after outcome))
    (hstack : (session.task id).stack = []) :
    session.step = { session with active := none }.report id outcome := by
  rw [step, hactive]
  show Session.giveBack { session with active := none } id outcome = _
  unfold giveBack
  have htask : (Session.task { session with active := none } id).stack = [] := hstack
  rw [htask]

/-- The session in which the body of the topmost frame goes on. -/
def reopening (session : Session) (id : TaskId) (rest : List Frame) : Session :=
  { session with active := none }.updateTask id fun task => { task with stack := rest }

theorem task_reopening
    {session : Session}
    {id : TaskId}
    (hid : id < session.tasks.size)
    (rest : List Frame)
    (other : TaskId) :
    (session.reopening id rest).task other =
      if other = id then { session.task other with stack := rest } else session.task other :=
  task_updateTask hid _ other

theorem step_after_cons
    {session : Session}
    {id : TaskId}
    {outcome : Outcome}
    {frame : Frame}
    {rest : List Frame}
    (hactive : session.active = some (id, .after outcome))
    (hstack : (session.task id).stack = frame :: rest) :
    session.step =
      ((session.reopening id rest).resume frame outcome).2.advance id frame.call
        ((session.reopening id rest).resume frame outcome).1 := by
  rw [step, hactive]
  show Session.giveBack { session with active := none } id outcome = _
  unfold giveBack
  have htask : (Session.task { session with active := none } id).stack = frame :: rest := hstack
  rw [htask]
  rfl

theorem step_of_idle
    {session : Session}
    (hactive : session.active = none) :
    session.step = session ∨
      ∃ id rest, session.ready = id :: rest ∧
        session.step = { session with ready := rest }.wake id := by
  rw [step, hactive]
  cases session.ready with
  | nil => exact Or.inl rfl
  | cons id rest => exact Or.inr ⟨id, rest, rfl, rfl⟩

/-! ### Between the moves -/

theorem Formed.congr
    {session after : Session}
    (h : session.Formed)
    (hcalls : after.calls = session.calls)
    (hlabels : after.labels = session.labels) :
    after.Formed := by
  constructor
  · rw [hcalls]
    exact h.staged
  · rw [hlabels, hcalls]
    exact h.labels

theorem Steady.congr
    {session after : Session}
    (h : session.Steady)
    (hcalls : after.calls = session.calls)
    (htasks : after.tasks = session.tasks)
    (hready : after.ready = session.ready)
    (hgates : after.gates = session.gates) :
    after.Steady := by
  have htask := task_eq_of_tasks_eq htasks
  constructor
  · intro id
    rw [htask, hcalls]
    exact h.framesHold id
  · intro id other
    rw [htask, htask]
    exact h.apart id other
  · intro id hid
    rw [htask, hcalls]
    exact h.called id (htasks ▸ hid)
  · intro id
    rw [htask]
    exact h.poised id
  · rw [hready, htasks]
    exact h.ready
  · intro entry hentry
    rw [htask, htasks]
    exact h.waiting entry (hgates ▸ hentry)

theorem sound_of_idle
    {session : Session}
    (hformed : session.Formed)
    (hsteady : session.Steady)
    (hidle : session.active = none) :
    session.Sound := by
  refine ⟨hformed, hsteady, ?_, ?_⟩
  · intro id point hactive
    rw [hidle] at hactive
    cases hactive
  · intro id call hactive
    rw [hidle] at hactive
    cases hactive

theorem sound_goOn_after
    {session : Session}
    {id : TaskId}
    (hformed : session.Formed)
    (hsteady : session.Steady)
    (hid : id < session.tasks.size)
    (hrunning : (session.task id).state = .running)
    (outcome : Outcome) :
    (session.goOn id (.after outcome)).Sound := by
  refine ⟨hformed.congr rfl rfl, hsteady.congr rfl rfl rfl rfl, ?_, ?_⟩
  · intro other point hactive
    cases hactive
    exact ⟨hid, hrunning⟩
  · intro other call hactive
    cases hactive

theorem sound_goOn_before
    {session : Session}
    {id : TaskId}
    {own : CallId}
    (hformed : session.Formed)
    (hsteady : session.Steady)
    (hid : id < session.tasks.size)
    (hrunning : (session.task id).state = .running)
    (hown : own < session.calls.size)
    (hserves : session.calls.Serves own (session.task id).stack) :
    (session.goOn id (.before own)).Sound := by
  refine ⟨hformed.congr rfl rfl, hsteady.congr rfl rfl rfl rfl, ?_, ?_⟩
  · intro other point hactive
    cases hactive
    exact ⟨hid, hrunning⟩
  · intro other call hactive
    cases hactive
    exact ⟨hown, hserves⟩

/-- The session after a body has ended. -/
def closing (session : Session) (own : CallId) (outcome : Outcome) : Session :=
  (session.note (.concluded own (conclusion (session.call own) outcome).2)).updateCall own
    fun call => { call with state := (conclusion (session.call own) outcome).1 }

/-- The session in which a body has left a frame. -/
def pushing (session : Session) (id : TaskId) (frame : Frame) : Session :=
  session.updateTask id fun task => { task with stack := frame :: task.stack }

/-- The session in which a task waits at a gate. -/
def parking (session : Session) (id : TaskId) (gate : String) : Session :=
  { session.updateTask id fun task => { task with state := .waiting gate } with
    gates := session.gates.wait id gate
    active := none }

theorem advance_ends
    (session : Session)
    (id : TaskId)
    (own : CallId)
    (outcome : Outcome) :
    session.advance id own (.ends outcome) =
      (session.closing own outcome).goOn id
        (.after (conclusion (session.call own) outcome).2) :=
  rfl

theorem advance_executes
    (session : Session)
    (id : TaskId)
    (own next : CallId)
    (frame : Frame) :
    session.advance id own (.executes next frame) =
      (session.pushing id frame).goOn id (.before next) :=
  rfl

/-- A body that waits leaves a frame; its task goes on at once, or waits at a closed gate. -/
theorem advance_waits
    (session : Session)
    (id : TaskId)
    (own : CallId)
    (gate : Option String)
    (frame : Frame) :
    session.advance id own (.waits gate frame) =
        (session.pushing id frame).goOn id (.after (.ok .null)) ∨
      ∃ place, session.advance id own (.waits gate frame) =
        (session.pushing id frame).parking id place := by
  rw [advance]
  dsimp only
  split
  · exact Or.inl rfl
  · rename_i place _
    exact Or.inr ⟨place, rfl⟩

/-- A body that waits changes nothing but tasks, gates, and which task runs. -/
theorem exists_advance_waits
    (session : Session)
    (id : TaskId)
    (own : CallId)
    (gate : Option String)
    (frame : Frame) :
    ∃ tasks gates active, session.advance id own (.waits gate frame) =
      { session with tasks := tasks, gates := gates, active := active } := by
  rcases advance_waits session id own gate frame with heq | ⟨place, heq⟩
  · exact ⟨_, _, _, heq⟩
  · exact ⟨_, _, _, heq⟩

/-- What a body goes on to leaves all calls with their plans and delegates. -/
theorem resembles_advance
    (session : Session)
    (task : TaskId)
    (own : CallId)
    (progress : Progress) :
    session.calls.Resembles (session.advance task own progress).calls := by
  cases progress with
  | ends outcome =>
      rw [advance_ends]
      exact Calls.resembles_setState session.calls own _
  | executes next frame => exact Calls.Resembles.refl session.calls
  | waits gate frame =>
      obtain ⟨_, _, _, heq⟩ := exists_advance_waits session task own gate frame
      rw [heq]
      exact Calls.Resembles.refl session.calls

/-- The task that is engaged with a call may push a frame of it, and goes on running. -/
theorem Engaged.pushing
    {session : Session}
    {id : TaskId}
    {own : CallId}
    {frame : Frame}
    (h : session.Engaged id own)
    (hcall : frame.call = own)
    (hfits : frame.Fits (session.call own).plan) :
    (session.pushing id frame).Steady ∧
      id < (session.pushing id frame).tasks.size ∧
      (session.pushing id frame).task id =
        { session.task id with stack := frame :: (session.task id).stack } := by
  subst hcall
  refine ⟨?_, Nat.lt_of_lt_of_eq h.task Array.size_modify.symm, ?_⟩
  · apply h.steady.updateTask h.task
    · exact Calls.isStack_cons_iff.mpr
        ⟨⟨h.call, h.executing, hfits⟩, h.alone id, h.serves, h.steady.framesHold id⟩
    · intro other hne above habove below hbelow
      rcases List.mem_cons.mp habove with rfl | hmem
      · exact Ne.symm (h.alone other below hbelow)
      · exact h.steady.apart id other (Ne.symm hne) above hmem below hbelow
    · rfl
    · simp [Task.IsPoised, h.running]
    · exact fun gate hwaiting _ => hwaiting
  · exact (task_updateTask h.task _ id).trans (if_pos rfl)

/-- A running task may wait in a body that goes on after a gate. -/
theorem Steady.parking
    {session : Session}
    {id : TaskId}
    {frame : Frame}
    {rest : List Frame}
    (h : session.Steady)
    (hid : id < session.tasks.size)
    (hrunning : (session.task id).state = .running)
    (hstack : (session.task id).stack = frame :: rest)
    (hleaf : frame.IsLeaf)
    (place : String) :
    (session.parking id place).Steady := by
  have hsteady : (session.updateTask id fun task => { task with state := .waiting place }).Steady := by
    apply h.updateTask hid
    · exact h.framesHold id
    · exact fun other hne => h.apart id other (Ne.symm hne)
    · rfl
    · exact ⟨frame, rest, hstack, hleaf⟩
    · intro gate hwaiting
      rw [hrunning] at hwaiting
      cases hwaiting
  refine ⟨hsteady.framesHold, hsteady.apart, hsteady.called, hsteady.poised, hsteady.ready, ?_⟩
  intro entry hentry
  rcases List.mem_append.mp hentry with hold | hnew
  · exact hsteady.waiting entry hold
  · cases List.mem_singleton.mp hnew
    refine ⟨Nat.lt_of_lt_of_eq hid Array.size_modify.symm, ?_⟩
    exact congrArg Task.state ((task_updateTask hid _ id).trans (if_pos rfl))

/-- The task goes on from a piece of a body to the next point. -/
theorem Engaged.advance
    {session : Session}
    {id : TaskId}
    {own : CallId}
    {progress : Progress}
    (h : session.Engaged id own)
    (hfits : progress.Fits own session.calls) :
    (session.advance id own progress).Sound := by
  cases progress with
  | ends outcome =>
      rw [advance_ends]
      have hspares := Calls.spares_setState session.calls own
        (conclusion (session.call own) outcome).1
      have hformed : (session.closing own outcome).Formed := h.formed.of_spares hspares rfl
      have hsteady : (session.closing own outcome).Steady :=
        h.steady.of_spares hspares h.alone rfl rfl rfl
      exact sound_goOn_after hformed hsteady h.task h.running _
  | executes next frame =>
      obtain ⟨hcall, hfits, hawaits, hnext⟩ := hfits
      obtain ⟨hsteady, hlt, htask⟩ := h.pushing hcall hfits
      rw [advance_executes]
      refine sound_goOn_before (h.formed.congr rfl rfl) hsteady hlt ?_ hnext ?_
      · rw [htask]
        exact h.running
      · rw [htask]
        exact ⟨hawaits, hcall ▸ h.serves⟩
  | waits gate frame =>
      obtain ⟨hcall, hfits, hleaf⟩ := hfits
      obtain ⟨hsteady, hlt, htask⟩ := h.pushing hcall hfits
      have hrunning : ((session.pushing id frame).task id).state = .running := by
        rw [htask]
        exact h.running
      have hformed : (session.pushing id frame).Formed := h.formed.congr rfl rfl
      rcases advance_waits session id own gate frame with heq | ⟨place, heq⟩
      · rw [heq]
        exact sound_goOn_after hformed hsteady hlt hrunning _
      · rw [heq]
        refine sound_of_idle (hformed.congr rfl rfl) ?_ rfl
        exact hsteady.parking hlt hrunning (congrArg Task.stack htask) hleaf place

/-! ### Steps keep a session sound -/

/-- The calls of all frames are executing, so none of them is new. -/
theorem Steady.alone_of_new
    {session : Session}
    {own : CallId}
    (h : session.Steady)
    (hstate : (session.call own).state = .new)
    (id : TaskId) :
    ∀ frame ∈ (session.task id).stack, frame.call ≠ own := by
  intro frame hframe hsame
  have hexecuting := ((h.framesHold id).holds frame hframe).2.1
  rw [hsame] at hexecuting
  exact absurd (hexecuting.symm.trans hstate) (by decide)

theorem sound_refusing
    {session : Session}
    {id : TaskId}
    {own : CallId}
    {failure : Failure}
    (h : session.Sound)
    (hid : id < session.tasks.size)
    (hrunning : (session.task id).state = .running)
    (hstate : (session.call own).state = .new) :
    ((session.updateCall own fun call => { call with state := .canceled }).goOn id
      (.after (.error failure))).Sound := by
  have hspares := Calls.spares_setState session.calls own .canceled
  have hformed : (session.updateCall own fun call => { call with state := .canceled }).Formed :=
    h.formed.of_spares hspares rfl
  have hsteady : (session.updateCall own fun call => { call with state := .canceled }).Steady :=
    h.steady.of_spares hspares (h.steady.alone_of_new hstate) rfl rfl rfl
  exact sound_goOn_after hformed hsteady hid hrunning _

theorem engaged_opening
    {session : Session}
    {id : TaskId}
    {own : CallId}
    (h : session.Sound)
    (hactive : session.active = some (id, .before own))
    (hstate : (session.call own).state = .new) :
    (session.opening own).Engaged id own := by
  obtain ⟨hid, hrunning⟩ := h.running id _ hactive
  obtain ⟨hown, hserves⟩ := h.standing id own hactive
  have hspares := Calls.spares_setState session.calls own .executing
  have halone := h.steady.alone_of_new hstate
  refine ⟨?_, ?_, hid, hrunning, ?_, ?_, halone, ?_⟩
  · exact h.formed.of_spares hspares rfl
  · exact h.steady.of_spares hspares halone rfl rfl rfl
  · exact Nat.lt_of_lt_of_le hown hspares.size
  · exact congrArg Call.state ((Calls.get_modify hown _ own).trans (if_pos rfl))
  · exact hserves.of_spares hspares
      (fun frame hframe => ((h.steady.framesHold id).holds frame hframe).1) (halone id)

theorem engaged_reopening
    {session : Session}
    {id : TaskId}
    {outcome : Outcome}
    {frame : Frame}
    {rest : List Frame}
    (h : session.Sound)
    (hactive : session.active = some (id, .after outcome))
    (hstack : (session.task id).stack = frame :: rest) :
    (session.reopening id rest).Engaged id frame.call := by
  obtain ⟨hid, hrunning⟩ := h.running id _ hactive
  have hwhole := h.steady.framesHold id
  rw [hstack] at hwhole
  obtain ⟨⟨hcall, hexecuting, _⟩, hother, hserves, hrest⟩ := Calls.isStack_cons_iff.mp hwhole
  have hframe : frame ∈ (session.task id).stack := hstack ▸ List.mem_cons_self
  have htask := task_reopening hid rest
  have hidle : Steady { session with active := none } := h.steady.congr rfl rfl rfl rfl
  refine ⟨h.formed.congr rfl rfl, ?_, ?_, ?_, hcall, hexecuting, ?_, ?_⟩
  · apply hidle.updateTask hid
    · exact hrest
    · intro other hne below hbelow
      have hmem : below ∈ (session.task id).stack := hstack ▸ List.mem_cons_of_mem frame hbelow
      exact h.steady.apart id other (Ne.symm hne) below hmem
    · rfl
    · have hstate : (Session.task { session with active := none } id).state = .running := hrunning
      simp [Task.IsPoised, hstate]
    · exact fun gate hwaiting _ => hwaiting
  · exact Nat.lt_of_lt_of_eq hid Array.size_modify.symm
  · rw [htask, if_pos rfl]
    exact hrunning
  · intro other below hbelow
    rw [htask] at hbelow
    split at hbelow
    · exact hother below hbelow
    · rename_i hne
      exact h.steady.apart other id hne below hbelow frame hframe
  · rw [htask, if_pos rfl]
    exact hserves

/-- A frame on a stack belongs to the plan of its call. -/
theorem Steady.fits
    {session : Session}
    {id : TaskId}
    {frame : Frame}
    {rest : List Frame}
    (h : session.Steady)
    (hstack : (session.task id).stack = frame :: rest) :
    frame.Fits (session.call frame.call).plan := by
  have hframe : frame ∈ (session.task id).stack := hstack ▸ List.mem_cons_self
  exact ((h.framesHold id).holds frame hframe).2.2

theorem piece_opening
    {session : Session}
    {id : TaskId}
    {own : CallId}
    (h : session.Sound)
    (hactive : session.active = some (id, .before own))
    (hstate : (session.call own).state = .new) :
    Piece own (session.opening own) ((session.opening own).begin own) := by
  have hengaged := engaged_opening h hactive hstate
  exact (works_begin hengaged.formed hengaged.call).toPiece

theorem piece_reopening
    {session : Session}
    {id : TaskId}
    {outcome : Outcome}
    {frame : Frame}
    {rest : List Frame}
    (h : session.Sound)
    (hactive : session.active = some (id, .after outcome))
    (hstack : (session.task id).stack = frame :: rest) :
    Piece frame.call (session.reopening id rest) ((session.reopening id rest).resume frame outcome) := by
  have hengaged := engaged_reopening h hactive hstack
  exact piece_resume hengaged.formed hengaged.call (h.steady.fits hstack) outcome

/-- A task ends with an empty stack. -/
theorem sound_finish
    {session : Session}
    {id : TaskId}
    (hformed : session.Formed)
    (hsteady : session.Steady)
    (hid : id < session.tasks.size)
    (hstack : (session.task id).stack = [])
    (hnotWaiting : ∀ gate, (session.task id).state ≠ .waiting gate)
    (outcome : Outcome) :
    (session.finish id outcome).Sound := by
  have hended : (session.updateTask id fun task => { task with state := .ended outcome }).Steady := by
    apply hsteady.updateTask hid
    · exact hsteady.framesHold id
    · exact fun other hne => hsteady.apart id other (Ne.symm hne)
    · rfl
    · exact hstack
    · exact fun gate hwaiting => absurd hwaiting (hnotWaiting gate)
  exact sound_of_idle (hformed.congr rfl rfl) (hended.congr rfl rfl rfl rfl) rfl

theorem sound_report
    {session : Session}
    {id : TaskId}
    (hformed : session.Formed)
    (hsteady : session.Steady)
    (hid : id < session.tasks.size)
    (hrunning : (session.task id).state = .running)
    (hstack : (session.task id).stack = [])
    (outcome : Outcome) :
    (session.report id outcome).Sound := by
  have hnotWaiting : ∀ gate, (session.task id).state ≠ .waiting gate := by
    intro gate hwaiting
    rw [hrunning] at hwaiting
    cases hwaiting
  unfold report
  dsimp only
  cases (session.task id).audience with
  | caller => exact sound_finish hformed hsteady hid hstack hnotWaiting outcome
  | callback fails =>
      apply sound_finish
      · exact hformed.congr rfl rfl
      · exact hsteady.congr rfl rfl rfl rfl
      · exact hid
      · exact hstack
      · exact hnotWaiting

/-- The next task goes on from where it was left. -/
theorem sound_wake
    {session : Session}
    {id : TaskId}
    (h : session.Sound)
    (hid : id < session.tasks.size) :
    (session.wake id).Sound := by
  have hpoised := h.steady.poised id
  have hrunning : (∀ gate, (session.task id).state ≠ .waiting gate) →
      (session.updateTask id fun task => { task with state := .running }).Steady := by
    intro hnotWaiting
    apply h.steady.updateTask hid
    · exact h.steady.framesHold id
    · exact fun other hne => h.steady.apart id other (Ne.symm hne)
    · rfl
    · exact trivial
    · exact fun gate hwaiting => absurd hwaiting (hnotWaiting gate)
  have hformed : (session.updateTask id fun task => { task with state := .running }).Formed :=
    h.formed.congr rfl rfl
  have hlt : id < (session.updateTask id fun task =>
      { task with state := .running }).tasks.size :=
    Nat.lt_of_lt_of_eq hid Array.size_modify.symm
  have htask : (session.updateTask id fun task => { task with state := .running }).task id =
      { session.task id with state := .running } :=
    (task_updateTask hid _ id).trans (if_pos rfl)
  unfold wake
  dsimp only
  cases hstate : (session.task id).state with
  | running => exact h
  | waiting place => exact h
  | ended outcome => exact h
  | ready signal =>
      have hsteady := hrunning fun gate hwaiting => by
        rw [hstate] at hwaiting
        cases hwaiting
      cases signal with
      | start =>
          rw [Task.IsPoised, hstate] at hpoised
          apply sound_goOn_before hformed hsteady hlt
          · rw [htask]
          · exact h.steady.called id hid
          · rw [htask]
            dsimp only
            rw [hpoised]
            trivial
      | proceed => exact sound_goOn_after hformed hsteady hlt (by rw [htask]) _
      | interrupt => exact sound_goOn_after hformed hsteady hlt (by rw [htask]) _
      | abandon =>
          rw [Task.IsPoised, hstate] at hpoised
          apply sound_finish hformed hsteady hlt
          · rw [htask]
            exact hpoised
          · rw [htask]
            intro gate hwaiting
            cases hwaiting

theorem Sound.pop
    {session : Session}
    {id : TaskId}
    {rest : List TaskId}
    (h : session.Sound)
    (hidle : session.IsIdle)
    (hready : session.ready = id :: rest) :
    Sound { session with ready := rest } := by
  have hsteady := h.steady
  refine sound_of_idle (h.formed.congr rfl rfl) ?_ hidle
  refine ⟨hsteady.framesHold, hsteady.apart, hsteady.called, hsteady.poised, ?_, hsteady.waiting⟩
  intro other hother
  exact hsteady.ready other (hready ▸ List.mem_cons_of_mem id hother)

theorem sound_step
    {session : Session}
    (h : session.Sound) :
    session.step.Sound := by
  rcases hactive : session.active with _ | ⟨id, own | outcome⟩
  · rcases step_of_idle hactive with heq | ⟨id, rest, hready, heq⟩
    · rwa [heq]
    · rw [heq]
      exact sound_wake (h.pop hactive hready)
        (h.steady.ready id (hready ▸ List.mem_cons_self))
  · obtain ⟨hid, hrunning⟩ := h.running id _ hactive
    by_cases hstate : (session.call own).state = .new
    · have hengaged := engaged_opening h hactive hstate
      cases hflag : (session.call own).canceled with
      | true =>
          rw [step_before_of_canceled hactive hstate hflag]
          exact sound_refusing h hid hrunning hstate
      | false =>
          rw [step_before_of_new hactive hstate hflag]
          have hpiece := piece_opening h hactive hstate
          exact (hengaged.of_piece hpiece).advance hpiece.fits
    · rw [step_before_of_ne_new hactive hstate]
      exact sound_goOn_after h.formed h.steady hid hrunning _
  · obtain ⟨hid, hrunning⟩ := h.running id _ hactive
    cases hstack : (session.task id).stack with
    | nil =>
        rw [step_after_nil hactive hstack]
        exact sound_report (h.formed.congr rfl rfl) (h.steady.congr rfl rfl rfl rfl) hid hrunning
          hstack outcome
    | cons frame rest =>
        rw [step_after_cons hactive hstack]
        have hengaged := engaged_reopening h hactive hstack
        have hpiece := piece_reopening h hactive hstack
        exact (hengaged.of_piece hpiece).advance hpiece.fits

/-! ### What happens from outside -/

theorem sound_breakOff
    {session : Session}
    (h : session.Sound) :
    session.breakOff.Sound := by
  unfold breakOff
  rcases hactive : session.active with _ | ⟨id, point⟩
  · exact h
  · obtain ⟨hid, hrunning⟩ := h.running id point hactive
    exact sound_goOn_after h.formed h.steady hid hrunning _

/-- Between the turns of the tasks, calls may be canceled or added, and labels set. -/
theorem sound_of_grows
    {session after : Session}
    (h : session.Sound)
    (hidle : session.IsIdle)
    (hspares : ∀ own, session.calls.Spares own after.calls)
    (htasks : after.tasks = session.tasks)
    (hready : after.ready = session.ready)
    (hgates : after.gates = session.gates)
    (hactive : after.active = session.active)
    (hlabels : ∀ entry ∈ after.labels,
      entry ∈ session.labels ∨ entry.2 < after.calls.size) :
    after.Sound := by
  have hsteady : after.Steady := by
    refine h.steady.of_spares (hspares session.calls.size) ?_ htasks hready hgates
    intro id frame hframe
    exact Nat.ne_of_lt ((h.steady.framesHold id).holds frame hframe).1
  have hstaged : Formed { after with labels := session.labels } :=
    h.formed.of_spares (hspares session.calls.size) rfl
  refine sound_of_idle ⟨hstaged.staged, ?_⟩ hsteady (hactive.trans hidle)
  intro entry hentry
  rcases hlabels entry hentry with hold | hnew
  · exact hstaged.labels entry hold
  · exact hnew

theorem sound_define
    {session : Session}
    (h : session.Sound)
    (hidle : session.IsIdle)
    (label : String)
    (plan : Plan) :
    (session.define label plan).Sound := by
  have hadded := Calls.added_add session.calls plan
  apply sound_of_grows h hidle fun own => (hadded.adds.grows own).spares
  · rfl
  · rfl
  · rfl
  · rfl
  · intro entry hentry
    rcases Entries.mem_put hentry with rfl | hold
    · exact Or.inr hadded.lt
    · exact Or.inl hold

theorem sound_defineOn
    {session : Session}
    {first : CallId}
    (h : session.Sound)
    (hidle : session.IsIdle)
    (hfirst : first < session.calls.size)
    (label : String)
    {plan : Plan}
    (hplan : plan.first? = some (session.call first).plan) :
    (session.defineOn label plan first).Sound := by
  have hadds := Calls.adds_push_some hfirst hplan
  apply sound_of_grows h hidle fun own => (hadds.grows own).spares
  · rfl
  · rfl
  · rfl
  · rfl
  · intro entry hentry
    rcases Entries.mem_put hentry with rfl | hold
    · exact Or.inr (Nat.lt_of_lt_of_eq (Nat.lt_succ_self _)
        (Calls.size_push session.calls plan (some first)).symm)
    · exact Or.inl hold

theorem task_spawn
    (session : Session)
    (name : String)
    (call : CallId)
    (audience : Audience)
    (id : TaskId) :
    (session.spawn name call audience).task id =
      if id = session.tasks.size then ⟨name, call, audience, .ready .start, []⟩
      else session.task id := by
  simp only [task, spawn, Array.getD_eq_getD_getElem?, Array.getElem?_push]
  split <;> rfl

theorem sound_spawn
    {session : Session}
    {call : CallId}
    (h : session.Sound)
    (hidle : session.IsIdle)
    (hcall : call < session.calls.size)
    (name : String)
    (audience : Audience) :
    (session.spawn name call audience).Sound := by
  have htask := task_spawn session name call audience
  have hsize : (session.spawn name call audience).tasks.size = session.tasks.size + 1 := by
    simp [spawn]
  have hstack : ∀ id, ((session.spawn name call audience).task id).stack = [] ∨
      (session.spawn name call audience).task id = session.task id := by
    intro id
    rw [htask]
    split
    · exact Or.inl rfl
    · exact Or.inr rfl
  refine sound_of_idle (h.formed.congr rfl rfl) ⟨?_, ?_, ?_, ?_, ?_, ?_⟩ hidle
  · intro id
    rcases hstack id with hnil | hsame
    · rw [hnil]
      exact Calls.isStack_nil _
    · rw [hsame]
      exact h.steady.framesHold id
  · intro id other hne frame hframe frame' hframe'
    rcases hstack id with hnil | hsame
    · simp [hnil] at hframe
    · rcases hstack other with hnil' | hsame'
      · simp [hnil'] at hframe'
      · rw [hsame] at hframe
        rw [hsame'] at hframe'
        exact h.steady.apart id other hne frame hframe frame' hframe'
  · intro id hid
    rw [htask]
    split
    · exact hcall
    · rename_i hne
      rw [hsize] at hid
      exact h.steady.called id (Nat.lt_of_le_of_ne (Nat.lt_succ_iff.mp hid) hne)
  · intro id
    rw [htask]
    split
    · exact rfl
    · exact h.steady.poised id
  · intro id hid
    rw [hsize]
    rcases List.mem_append.mp hid with hold | hnew
    · exact Nat.lt_succ_of_lt (h.steady.ready id hold)
    · cases List.mem_singleton.mp hnew
      exact Nat.lt_succ_self _
  · intro entry hentry
    obtain ⟨hlt, hstate⟩ := h.steady.waiting entry hentry
    rw [hsize, htask, if_neg (Nat.ne_of_lt hlt)]
    exact ⟨Nat.lt_succ_of_lt hlt, hstate⟩

/-- A task that does not wait gets another signal, which goes with its stack. -/
theorem Steady.signal
    {session : Session}
    {id : TaskId}
    (h : session.Steady)
    (hid : id < session.tasks.size)
    {state : TaskState String Outcome}
    (hpoised : Task.IsPoised { session.task id with state := state })
    (hnotWaiting : ∀ gate, (id, gate) ∉ session.gates.waiting) :
    (session.updateTask id fun task => { task with state := state }).Steady := by
  apply h.updateTask hid
  · exact h.framesHold id
  · exact fun other hne => h.apart id other (Ne.symm hne)
  · rfl
  · exact hpoised
  · exact fun gate _ hmem => absurd hmem (hnotWaiting gate)

theorem Steady.not_mem_waiting
    {session : Session}
    {id : TaskId}
    (h : session.Steady)
    (hnotWaiting : ∀ gate, (session.task id).state ≠ .waiting gate)
    (gate : String) :
    (id, gate) ∉ session.gates.waiting :=
  fun hmem => hnotWaiting gate (h.waiting (id, gate) hmem).2

theorem sound_cancelTask
    {session : Session}
    {id : TaskId}
    (h : session.Sound)
    (hidle : session.IsIdle)
    (hid : id < session.tasks.size) :
    (session.cancelTask id).2.Sound := by
  have hpoised := h.steady.poised id
  have hsignal : ∀ signal : Signal, Task.IsPoised { session.task id with state := .ready signal } →
      (∀ gate, (id, gate) ∉ session.gates.waiting) →
      (session.updateTask id fun task => { task with state := .ready signal }).Sound := by
    intro signal hready hnotWaiting
    exact sound_of_idle (h.formed.congr rfl rfl) (h.steady.signal hid hready hnotWaiting) hidle
  unfold cancelTask
  cases hstate : (session.task id).state with
  | running => exact h
  | ended outcome => exact h
  | ready signal =>
      rw [Task.IsPoised, hstate] at hpoised
      have hnotWaiting := h.steady.not_mem_waiting fun gate hwaiting => by
        rw [hstate] at hwaiting
        cases hwaiting
      cases signal with
      | start => exact hsignal .abandon hpoised hnotWaiting
      | abandon => exact h
      | proceed => exact hsignal .interrupt hpoised hnotWaiting
      | interrupt => exact hsignal .interrupt hpoised hnotWaiting
  | waiting place =>
      rw [Task.IsPoised, hstate] at hpoised
      -- The task is forgotten at its gate before it becomes ready.
      have hforgotten : Steady { session with gates := session.gates.forget id } :=
        ⟨h.steady.framesHold, h.steady.apart, h.steady.called, h.steady.poised, h.steady.ready,
          fun entry hentry => h.steady.waiting entry (List.mem_filter.mp hentry).1⟩
      have hsteady := hforgotten.signal hid
        (show Task.IsPoised { session.task id with state := .ready .interrupt } from hpoised)
        (fun gate hmem => by simp [Gates.forget] at hmem)
      refine sound_of_idle (h.formed.congr rfl rfl) ?_ hidle
      refine ⟨hsteady.framesHold, hsteady.apart, hsteady.called, hsteady.poised, ?_, hsteady.waiting⟩
      intro other hother
      rcases List.mem_append.mp hother with hold | hnew
      · exact hsteady.ready other hold
      · cases List.mem_singleton.mp hnew
        exact Nat.lt_of_lt_of_eq hid Array.size_modify.symm

/-- Whoever is listed at a gate waits there. -/
theorem Steady.waits_at
    {session : Session}
    {id : TaskId}
    {gate : String}
    (h : session.Steady)
    (hid : id ∈ session.gates.waitingAt gate) :
    id < session.tasks.size ∧ (session.task id).state = .waiting gate := by
  obtain ⟨⟨other, place⟩, hentry, rfl⟩ := List.mem_map.mp hid
  obtain ⟨hmem, hplace⟩ := List.mem_filter.mp hentry
  have hwaiting := h.waiting _ hmem
  rwa [of_decide_eq_true hplace] at hwaiting

/-- The tasks after several of them got the signal to go on. -/
theorem foldl_proceed
    (woken : List TaskId)
    {session : Session}
    (hlt : ∀ id ∈ woken, id < session.tasks.size) :
    let after := woken.foldl (fun session id =>
      session.updateTask id fun task => { task with state := .ready .proceed }) session
    after = { session with tasks := after.tasks } ∧ after.tasks.size = session.tasks.size ∧
      ∀ id, after.task id =
        if id ∈ woken then { session.task id with state := .ready .proceed }
        else session.task id := by
  induction woken generalizing session with
  | nil => exact ⟨rfl, rfl, fun id => by simp⟩
  | cons first rest ih =>
      obtain ⟨hfirst, hrest⟩ := List.forall_mem_cons.mp hlt
      have hsize : (session.updateTask first fun task =>
          { task with state := .ready .proceed }).tasks.size = session.tasks.size :=
        Array.size_modify
      obtain ⟨heq, hlen, htask⟩ := ih (fun id hid => hsize.symm ▸ hrest id hid)
      refine ⟨heq, hlen.trans hsize, ?_⟩
      intro id
      rw [List.foldl_cons, htask, task_updateTask hfirst]
      by_cases hsame : id = first
      · simp [hsame]
      · simp [hsame]

/-- All waiters of a gate that was opened go on. -/
theorem sound_openGate
    {session : Session}
    (h : session.Sound)
    (hidle : session.IsIdle)
    (gate : String) :
    (session.openGate gate).Sound := by
  have hwoken : ∀ id ∈ session.gates.waitingAt gate,
      id < session.tasks.size ∧ (session.task id).state = .waiting gate :=
    fun _ => h.steady.waits_at
  obtain ⟨heq, hsize, htask⟩ := foldl_proceed _ fun id hid => (hwoken id hid).1
  unfold openGate
  dsimp only at heq hsize htask ⊢
  generalize (session.gates.waitingAt gate).foldl (fun session id =>
    session.updateTask id fun task => { task with state := .ready .proceed }) session = after
    at heq hsize htask ⊢
  have hcalls : after.calls = session.calls := by rw [heq]
  have hstack : ∀ id, (after.task id).stack = (session.task id).stack := by
    intro id
    rw [htask]
    split <;> rfl
  refine sound_of_idle (h.formed.congr hcalls (by rw [heq])) ⟨?_, ?_, ?_, ?_, ?_, ?_⟩ ?_
  · intro id
    show after.calls.IsStack (after.task id).stack
    rw [hcalls, hstack]
    exact h.steady.framesHold id
  · intro id other
    show _ → ∀ frame ∈ (after.task id).stack, ∀ frame' ∈ (after.task other).stack, _
    rw [hstack, hstack]
    exact h.steady.apart id other
  · intro id hid
    show (after.task id).call < after.calls.size
    rw [hcalls, htask]
    split
    · exact h.steady.called id (hsize ▸ hid)
    · exact h.steady.called id (hsize ▸ hid)
  · intro id
    show (after.task id).IsPoised
    rw [htask]
    split
    · rename_i hmem
      have hpoised := h.steady.poised id
      rw [Task.IsPoised, (hwoken id hmem).2] at hpoised
      exact hpoised
    · exact h.steady.poised id
  · intro id hid
    show id < after.tasks.size
    rw [hsize]
    rcases List.mem_append.mp hid with hold | hnew
    · rw [heq] at hold
      exact h.steady.ready id hold
    · exact (hwoken id hnew).1
  · intro entry hentry
    obtain ⟨hmem, hplace⟩ := List.mem_filter.mp hentry
    rw [heq] at hmem
    obtain ⟨hlt, hstate⟩ := h.steady.waiting entry hmem
    show entry.1 < after.tasks.size ∧ (after.task entry.1).state = .waiting entry.2
    rw [hsize, htask]
    refine ⟨hlt, ?_⟩
    split
    · -- Whoever waits at another gate does not wait at this one.
      rename_i hwaits
      have hgate := hstate.symm.trans (hwoken entry.1 hwaits).2
      simp only [TaskState.waiting.injEq] at hgate
      simp [hgate] at hplace
    · exact hstate
  · show after.active = none
    rw [heq]
    exact hidle

theorem sound_of_move
    {session after : Session}
    (h : session.Sound)
    (hmove : Move session after) :
    after.Sound := by
  cases hmove with
  | step => exact sound_step h
  | breakOff => exact sound_breakOff h
  | define label plan hidle => exact sound_define h hidle label plan
  | map label first mapper hidle hfirst => exact sound_defineOn h hidle hfirst label rfl
  | flatMap label first mapper hidle hfirst => exact sound_defineOn h hidle hfirst label rfl
  | spawn name call audience hidle hcall => exact sound_spawn h hidle hcall name audience
  | cancel call hidle hcall =>
      apply sound_of_grows h hidle fun own => (Calls.marks_cancel session.calls call).spares own
      · rfl
      · rfl
      · rfl
      · rfl
      · exact fun entry hentry => Or.inl hentry
  | cancelTask task hidle htask => exact sound_cancelTask h hidle htask
  | openGate gate hidle => exact sound_openGate h hidle gate
  | watch phase call hidle hcall =>
      exact sound_of_idle (h.formed.congr rfl rfl) (h.steady.congr rfl rfl rfl rfl) hidle

theorem sound_start (backend : Backend) : (start backend).Sound := by
  have htask : ∀ id, (start backend).task id = default := by
    intro id
    simp [task, start]
  refine sound_of_idle ⟨?_, ?_⟩ ⟨?_, ?_, ?_, ?_, ?_, ?_⟩ rfl
  · exact fun id hid => absurd hid (Nat.not_lt_zero id)
  · exact fun entry hentry => absurd hentry List.not_mem_nil
  · intro id
    rw [htask]
    exact Calls.isStack_nil _
  · intro id other _ frame hframe
    rw [htask] at hframe
    exact absurd hframe List.not_mem_nil
  · exact fun id hid => absurd hid (Nat.not_lt_zero id)
  · intro id
    rw [htask]
    exact rfl
  · exact fun id hid => absurd hid List.not_mem_nil
  · exact fun entry hentry => absurd hentry List.not_mem_nil

/-- **Every reachable session is sound.** -/
theorem sound_of_reachable
    {session : Session}
    (h : session.Reachable) :
    session.Sound :=
  h.induct sound_start fun _ _ hsound hmove => sound_of_move hsound hmove

end Session
end TraceArchive
