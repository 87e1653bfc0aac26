import TraceArchive.Proofs.Changes
import TraceArchive.Proofs.Session.Steps

/-!
# What a move does to the flags and the stacks

A move either comes from outside, or moves a task on without running a body, or runs a piece of the
body of one call.  None of them takes back that a call was canceled.

* `Calls.Flags`: with each call that was canceled, so were all calls below it.
* `Rests`: what is left as it was by moves that run no body, and how they change the calls.
* `Turns`, `move_cases`: moves that run no body, and all moves by what they run.
* `flags_of_move`: no move takes back that a call was canceled.
-/

set_option autoImplicit false

namespace TraceArchive

namespace Calls

/-- No flag was taken back, and with each call that was canceled so were all calls below it. -/
structure Flags (calls calls' : Calls) : Prop where
  size : calls.size ≤ calls'.size
  plan : ∀ id < calls.size, (calls'.get id).plan = (calls.get id).plan
  canceled : ∀ id < calls.size, (calls.get id).canceled = true → (calls'.get id).canceled = true
  below : calls.IsForest → ∀ id < calls.size,
    (calls.get id).canceled = false → (calls'.get id).canceled = true →
      ∀ other < calls.size, calls.Below id other →
        (calls'.get other).canceled = true ∨ (calls.get other).plan.ignoresCancel = true

theorem Grows.flags
    {own : CallId}
    {calls calls' : Calls}
    (h : Grows own calls calls') :
    Flags calls calls' :=
  ⟨h.size, h.plan, h.canceled, h.below⟩

theorem Flags.refl (calls : Calls) : Flags calls calls :=
  ((Adds.refl calls).grows 0).flags

/-- Changes of states, before or after, do not matter. -/
theorem Flags.of_setState
    {calls calls' : Calls}
    {own : CallId}
    {state : CallState}
    (h : Flags (calls.modify own fun call => { call with state := state }) calls') :
    Flags calls calls' := by
  have hsize : Array.size (calls.modify own fun call => { call with state := state }) =
      calls.size := Array.size_modify
  have hplan := get_setState Call.plan state (fun _ => rfl) calls own
  have hflag := get_setState Call.canceled state (fun _ => rfl) calls own
  have hdelegates := get_setState Call.delegates state (fun _ => rfl) calls own
  refine ⟨hsize ▸ h.size, ?_, ?_, ?_⟩
  · intro id hid
    exact (h.plan id (hsize.symm ▸ hid)).trans (hplan id)
  · intro id hid hcanceled
    exact h.canceled id (hsize.symm ▸ hid) ((hflag id).trans hcanceled)
  · intro hforest id hid hbefore hafter other hother hbelow
    have hforest' : IsForest (calls.modify own fun call => { call with state := state }) := by
      simpa only [IsForest, cancelEnds, descent, hsize, descend_congr hdelegates] using hforest
    have hbelow' : Below (calls.modify own fun call => { call with state := state }) id other := by
      simpa only [Below, hdelegates] using hbelow
    rw [← hplan]
    exact h.below hforest' id (hsize.symm ▸ hid) ((hflag id).trans hbefore) hafter other
      (hsize.symm ▸ hother) hbelow'

theorem Flags.setState
    {calls calls' : Calls}
    (h : Flags calls calls')
    (own : CallId)
    (state : CallState) :
    Flags calls (calls'.modify own fun call => { call with state := state }) := by
  have hflag := get_setState Call.canceled state (fun _ => rfl) calls' own
  refine ⟨Array.size_modify.symm ▸ h.size, ?_, ?_, ?_⟩
  · intro id hid
    exact (get_setState Call.plan state (fun _ => rfl) calls' own id).trans (h.plan id hid)
  · intro id hid hcanceled
    exact (hflag id).trans (h.canceled id hid hcanceled)
  · intro hforest id hid hbefore hafter other hother hbelow
    rw [hflag] at hafter ⊢
    exact h.below hforest id hid hbefore hafter other hother hbelow

end Calls

namespace Session

/-! ### No flag is taken back -/

theorem flags_advance
    {calls : Calls}
    {session : Session}
    (h : calls.Flags session.calls)
    (id : TaskId)
    (own : CallId)
    (progress : Progress) :
    calls.Flags (session.advance id own progress).calls := by
  cases progress with
  | ends outcome =>
      rw [advance_ends]
      exact h.setState own _
  | executes next frame => exact h
  | waits gate frame =>
      obtain ⟨_, _, _, heq⟩ := exists_advance_waits session id own gate frame
      rw [heq]
      exact h

theorem calls_wake (session : Session) (id : TaskId) :
    (session.wake id).calls = session.calls := by
  unfold wake
  dsimp only
  split <;> rfl

theorem calls_report
    (session : Session)
    (task : TaskId)
    (outcome : Outcome) :
    (session.report task outcome).calls = session.calls := by
  unfold report
  dsimp only
  split <;> rfl

end Session

/-- An observation that no body makes: a callback is told of an outcome, or a task ends. -/
def Observation.isRemark : Observation → Bool
  | .notified _ _ => true
  | .ended _ _ => true
  | _ => false

namespace Session

/-- No body ran: calls were added or canceled, a new call that was canceled may have been refused,
and nothing but remarks was added to the journal. -/
structure Rests (session after : Session) : Prop where
  fresh : ∀ id < after.calls.size, session.calls.size ≤ id → after.calls.IsFresh id
  state : ∀ id < session.calls.size, (after.call id).state = (session.call id).state ∨
    (session.call id).state = .new ∧ (after.call id).state = .canceled
  next : ∀ id < session.calls.size, (after.call id).next = (session.call id).next
  journal : ∃ remarks, after.journal = remarks ++ session.journal ∧
    ∀ entry ∈ remarks, entry.isRemark = true
  searches : after.searches = session.searches
  backend : after.backend = session.backend
  changes : ∀ own, session.calls.Changes own after.calls

/-- Calls were added or canceled, and nothing was observed. -/
theorem rests_of_grows
    {session after : Session}
    (hgrows : session.calls.Grows session.calls.size after.calls)
    (hchanges : ∀ own, session.calls.Changes own after.calls)
    (hjournal : after.journal = session.journal)
    (hsearches : after.searches = session.searches)
    (hbackend : after.backend = session.backend) :
    Rests session after := by
  refine ⟨hgrows.fresh, fun id hid => Or.inl (hgrows.state id hid), ?_, ⟨[], hjournal, by simp⟩,
    hsearches, hbackend, hchanges⟩
  exact fun id hid => hgrows.next id hid (Nat.ne_of_lt hid)

/-- The calls are as they were, and remarks were made. -/
theorem rests_of_remarks
    {session after : Session}
    {remarks : List Observation}
    (hremarks : ∀ entry ∈ remarks, entry.isRemark = true)
    (hcalls : after.calls = session.calls)
    (hjournal : after.journal = remarks ++ session.journal)
    (hsearches : after.searches = session.searches)
    (hbackend : after.backend = session.backend) :
    Rests session after := by
  have hcall : ∀ id, after.call id = session.call id := fun id => by rw [call, call, hcalls]
  refine ⟨?_, fun id _ => Or.inl (by rw [hcall]), fun id _ => by rw [hcall],
    ⟨remarks, hjournal, hremarks⟩, hsearches, hbackend, fun _ => hcalls ▸ .refl⟩
  intro id hlt hle
  rw [hcalls] at hlt
  exact absurd hlt (Nat.not_lt.mpr hle)

/-- The calls are as they were, and nothing was observed. -/
theorem rests_of_calls_eq
    {session after : Session}
    (hcalls : after.calls = session.calls)
    (hjournal : after.journal = session.journal)
    (hsearches : after.searches = session.searches)
    (hbackend : after.backend = session.backend) :
    Rests session after :=
  rests_of_remarks (List.forall_mem_nil _) hcalls hjournal hsearches hbackend

theorem Rests.refl (session : Session) : Rests session session :=
  rests_of_calls_eq rfl rfl rfl rfl

/-- It does not matter which tasks are ready or running. -/
theorem Rests.congr
    {session earlier after : Session}
    (h : Rests session after)
    (hcalls : session.calls = earlier.calls)
    (hjournal : session.journal = earlier.journal)
    (hsearches : session.searches = earlier.searches)
    (hbackend : session.backend = earlier.backend) :
    Rests earlier after := by
  have hcall : ∀ id, session.call id = earlier.call id := fun id => by rw [call, call, hcalls]
  refine ⟨hcalls ▸ h.fresh, ?_, ?_, hjournal ▸ h.journal, h.searches.trans hsearches,
    h.backend.trans hbackend, hcalls ▸ h.changes⟩
  · intro id hid
    rw [← hcall]
    exact h.state id (hcalls ▸ hid)
  · intro id hid
    rw [← hcall]
    exact h.next id (hcalls ▸ hid)

/-- A new call was refused. -/
theorem rests_refused
    {session : Session}
    {own : CallId}
    (hstate : (session.call own).state = .new)
    (task : TaskId)
    (point : Point) :
    Rests session
      ((session.updateCall own fun call => { call with state := .canceled }).goOn task point) := by
  have hspares := Calls.spares_setState session.calls own .canceled
  refine ⟨hspares.fresh, ?_, ?_, ⟨[], rfl, by simp⟩, rfl, rfl,
    fun _ => Calls.Changes.refl.setState own .canceled⟩
  · intro id hid
    by_cases hsame : id = own
    · subst hsame
      exact Or.inr ⟨hstate, congrArg Call.state ((Calls.get_modify hid _ id).trans (if_pos rfl))⟩
    · exact Or.inl (hspares.state id hid hsame)
  · exact fun id _ => Calls.get_setState Call.next .canceled (fun _ => rfl) session.calls own id

/-- A move from outside: no task is running before or after it, and every stack stays as it is or
is that of a new task. -/
structure Outside (session after : Session) : Prop where
  idle : session.IsIdle
  stays : after.IsIdle
  flags : session.calls.Flags after.calls
  rests : Rests session after
  framesKept : ∀ id, (after.task id).stack = (session.task id).stack ∨ (after.task id).stack = []

theorem stack_setState
    (session : Session)
    (id : TaskId)
    (state : TaskState String Outcome)
    (other : TaskId) :
    ((session.updateTask id fun task => { task with state := state }).task other).stack =
      (session.task other).stack := by
  by_cases hsame : other = id
  · subst hsame
    by_cases hlt : other < session.tasks.size
    · rw [task_updateTask hlt, if_pos rfl]
    · simp [task, updateTask, Array.getD_eq_getD_getElem?, hlt]
  · rw [task_updateTask_of_ne hsame]

theorem outside_cancelTask
    {session : Session}
    (hidle : session.IsIdle)
    (id : TaskId) :
    Outside session (session.cancelTask id).2 := by
  have hflags := Calls.Flags.refl session.calls
  have hrests := Rests.refl session
  unfold cancelTask
  split
  · exact ⟨hidle, hidle, hflags, hrests, fun _ => Or.inl rfl⟩
  · exact ⟨hidle, hidle, hflags, hrests, fun _ => Or.inl rfl⟩
  · exact ⟨hidle, hidle, hflags, rests_of_calls_eq rfl rfl rfl rfl,
      fun other => Or.inl (stack_setState session id _ other)⟩
  · exact ⟨hidle, hidle, hflags, hrests, fun _ => Or.inl rfl⟩
  · exact ⟨hidle, hidle, hflags, rests_of_calls_eq rfl rfl rfl rfl,
      fun other => Or.inl (stack_setState session id _ other)⟩
  · exact ⟨hidle, hidle, hflags, rests_of_calls_eq rfl rfl rfl rfl,
      fun other => Or.inl (stack_setState session id _ other)⟩

theorem outside_openGate
    {session : Session}
    (h : session.Steady)
    (hidle : session.IsIdle)
    (gate : String) :
    Outside session (session.openGate gate) := by
  obtain ⟨heq, _, htask⟩ := foldl_proceed (session.gates.waitingAt gate)
    fun id hid => (h.waits_at hid).1
  unfold openGate
  dsimp only at heq htask ⊢
  rw [heq]
  refine ⟨hidle, hidle, Calls.Flags.refl session.calls, rests_of_calls_eq rfl rfl rfl rfl,
    fun id => Or.inl ?_⟩
  have hget := htask id
  rw [heq] at hget
  refine (congrArg Task.stack hget).trans ?_
  split <;> rfl

theorem outside_defineOn
    {session : Session}
    {first : CallId}
    (hidle : session.IsIdle)
    (hfirst : first < session.calls.size)
    (label : String)
    {plan : Plan}
    (hplan : plan.first? = some (session.call first).plan) :
    Outside session (session.defineOn label plan first) := by
  have hadds := Calls.adds_push_some hfirst hplan
  have hchanges : ∀ own,
      session.calls.Changes own (session.calls.push plan (some first)).1 :=
    fun _ => Calls.Changes.refl.push plan (some first) fun _ => Plan.isComposed_of_first? hplan
  exact ⟨hidle, hidle, (hadds.grows 0).flags,
    rests_of_grows (hadds.grows _) hchanges rfl rfl rfl, fun _ => Or.inl rfl⟩

/-- Every move is a step of a task, or breaks one off, or comes from outside. -/
theorem outside_of_move
    {session after : Session}
    (h : session.Steady)
    (hmove : Move session after) :
    after = session.step ∨ after = session.breakOff ∨ Outside session after := by
  cases hmove with
  | step => exact Or.inl rfl
  | breakOff => exact Or.inr (Or.inl rfl)
  | define label plan hidle =>
      have hadds := (Calls.added_add session.calls plan).adds
      exact Or.inr (Or.inr ⟨hidle, hidle, (hadds.grows 0).flags,
        rests_of_grows (hadds.grows _) (fun _ => Calls.Changes.refl.add plan) rfl rfl rfl,
        fun _ => Or.inl rfl⟩)
  | map label first mapper hidle hfirst =>
      exact Or.inr (Or.inr (outside_defineOn hidle hfirst label rfl))
  | flatMap label first mapper hidle hfirst =>
      exact Or.inr (Or.inr (outside_defineOn hidle hfirst label rfl))
  | spawn name call audience hidle hcall =>
      refine Or.inr (Or.inr ⟨hidle, hidle, Calls.Flags.refl _, rests_of_calls_eq rfl rfl rfl rfl,
        fun id => ?_⟩)
      rw [task_spawn]
      split
      · exact Or.inr rfl
      · exact Or.inl rfl
  | cancel call hidle hcall =>
      have hmarks := Calls.marks_cancel session.calls call
      have hgrows := fun own => hmarks.trans_grows ((Calls.Adds.refl _).grows own)
      exact Or.inr (Or.inr ⟨hidle, hidle, (hgrows 0).flags,
        rests_of_grows (hgrows _) (fun _ => Calls.Changes.refl.cancel call) rfl rfl rfl,
        fun _ => Or.inl rfl⟩)
  | cancelTask task hidle htask => exact Or.inr (Or.inr (outside_cancelTask hidle task))
  | openGate gate hidle => exact Or.inr (Or.inr (outside_openGate h hidle gate))
  | watch phase call hidle hcall =>
      exact Or.inr (Or.inr ⟨hidle, hidle, Calls.Flags.refl _, rests_of_calls_eq rfl rfl rfl rfl,
        fun _ => Or.inl rfl⟩)

/-- Every move but a step of a task and one that cancels a call only adds calls. -/
theorem adds_of_move
    {session after : Session}
    (h : session.Steady)
    (hmove : Move session after) :
    after = session.step ∨
      (session.IsIdle ∧ ∃ id < session.calls.size, after = (session.cancel id).2) ∨
      session.calls.Adds after.calls := by
  have hsame : after.calls = session.calls → session.calls.Adds after.calls :=
    fun hcalls => hcalls ▸ Calls.Adds.refl session.calls
  cases hmove with
  | step => exact Or.inl rfl
  | cancel call hidle hcall => exact Or.inr (Or.inl ⟨hidle, call, hcall, rfl⟩)
  | define label plan hidle => exact Or.inr (Or.inr (Calls.added_add session.calls plan).adds)
  | map label first mapper hidle hfirst =>
      exact Or.inr (Or.inr (Calls.adds_push_some hfirst rfl))
  | flatMap label first mapper hidle hfirst =>
      exact Or.inr (Or.inr (Calls.adds_push_some hfirst rfl))
  | breakOff =>
      refine Or.inr (Or.inr (hsame ?_))
      unfold breakOff
      split <;> rfl
  | cancelTask task hidle htask =>
      refine Or.inr (Or.inr (hsame ?_))
      unfold cancelTask
      split <;> rfl
  | openGate gate hidle =>
      have hwoken := congrArg Session.calls (foldl_proceed (session.gates.waitingAt gate)
        fun id hid => (h.waits_at hid).1).1
      exact Or.inr (Or.inr (hsame hwoken))
  | spawn name call audience hidle hcall => exact Or.inr (Or.inr (hsame rfl))
  | watch phase call hidle hcall => exact Or.inr (Or.inr (hsame rfl))

/-! ### Moves that run no body -/

/-- A move in which no body runs: it leaves the stacks alone, and the running task then stands at
its own call, after a gate, or at a failure. -/
structure Turns (session after : Session) : Prop where
  flags : session.calls.Flags after.calls
  rests : Rests session after
  framesKept : ∀ id, (after.task id).stack = (session.task id).stack ∨ (after.task id).stack = []
  before : ∀ id own, after.active = some (id, .before own) → (after.task id).stack = []
  value : ∀ id value, after.active = some (id, .after (.ok value)) →
    ∃ frame rest, (after.task id).stack = frame :: rest ∧ frame.IsLeaf

theorem turns_of_error
    {session : Session}
    {id : TaskId}
    {failure : Failure}
    {after : Session}
    (hflags : session.calls.Flags after.calls)
    (hrests : Rests session after)
    (htasks : after.tasks = session.tasks)
    (hactive : after.active = some (id, .after (.error failure))) :
    Turns session after := by
  refine ⟨hflags, hrests, fun other => Or.inl ?_, ?_, ?_⟩
  · rw [task_eq_of_tasks_eq htasks]
  · intro other own hother
    rw [hactive] at hother
    cases hother
  · intro other value hother
    rw [hactive] at hother
    cases hother

theorem turns_of_idle
    {session after : Session}
    (hflags : session.calls.Flags after.calls)
    (hrests : Rests session after)
    (hstacks : ∀ id, (after.task id).stack = (session.task id).stack ∨
      (after.task id).stack = [])
    (hidle : after.IsIdle) :
    Turns session after := by
  refine ⟨hflags, hrests, hstacks, ?_, ?_⟩
  · intro other own hother
    rw [hidle] at hother
    cases hother
  · intro other value hother
    rw [hidle] at hother
    cases hother

theorem turns_wake
    {session : Session}
    (id : TaskId)
    (h : session.Sound)
    (hidle : session.IsIdle) :
    Turns session (session.wake id) := by
  have hpoised := h.steady.poised id
  have hflags : session.calls.Flags (session.wake id).calls := by
    rw [calls_wake]
    exact Calls.Flags.refl _
  have hstack := stack_setState session id .running
  unfold wake at hflags ⊢
  dsimp only at hflags ⊢
  cases hstate : (session.task id).state with
  | running =>
      exact turns_of_idle (Calls.Flags.refl _) (Rests.refl session) (fun _ => Or.inl rfl) hidle
  | waiting place =>
      exact turns_of_idle (Calls.Flags.refl _) (Rests.refl session) (fun _ => Or.inl rfl) hidle
  | ended outcome =>
      exact turns_of_idle (Calls.Flags.refl _) (Rests.refl session) (fun _ => Or.inl rfl) hidle
  | ready signal =>
      rw [Task.IsPoised, hstate] at hpoised
      cases signal with
      | start =>
          refine ⟨Calls.Flags.refl _, rests_of_calls_eq rfl rfl rfl rfl,
            fun other => Or.inl (hstack other), ?_, ?_⟩
          · rintro other own ⟨rfl⟩
            exact (hstack id).trans hpoised
          · rintro other value ⟨⟩
      | proceed =>
          refine ⟨Calls.Flags.refl _, rests_of_calls_eq rfl rfl rfl rfl,
            fun other => Or.inl (hstack other), ?_, ?_⟩
          · rintro other own ⟨⟩
          · rintro other value ⟨rfl⟩
            obtain ⟨frame, rest, hcons, hleaf⟩ := hpoised
            exact ⟨frame, rest, (hstack id).trans hcons, hleaf⟩
      | interrupt =>
          refine ⟨Calls.Flags.refl _, rests_of_calls_eq rfl rfl rfl rfl,
            fun other => Or.inl (hstack other), ?_, ?_⟩
          · rintro other own ⟨⟩
          · rintro other value ⟨⟩
      | abandon =>
          have hremarks : ∀ entry ∈ [Observation.ended id (.error .interrupted)],
              entry.isRemark = true := by
            simp [Observation.isRemark]
          refine turns_of_idle (Calls.Flags.refl _) (rests_of_remarks hremarks rfl rfl rfl rfl)
            (fun other => Or.inl ?_) rfl
          exact (stack_setState _ id _ other).trans (hstack other)

theorem turns_report
    (session : Session)
    (id : TaskId)
    (outcome : Outcome) :
    Turns session (session.report id outcome) := by
  unfold report
  dsimp only
  cases (session.task id).audience with
  | caller =>
      have hremarks : ∀ entry ∈ [Observation.ended id outcome], entry.isRemark = true := by
        simp [Observation.isRemark]
      exact turns_of_idle (Calls.Flags.refl _) (rests_of_remarks hremarks rfl rfl rfl rfl)
        (fun other => Or.inl (stack_setState session id _ other)) rfl
  | callback fails =>
      have hremarks : ∀ entry ∈ [Observation.ended id (afterCallback fails outcome), .notified id
          (announcement (session.call (session.task id).call).plan.kind outcome)],
          entry.isRemark = true := by
        simp [Observation.isRemark]
      exact turns_of_idle (Calls.Flags.refl _) (rests_of_remarks hremarks rfl rfl rfl rfl)
        (fun other => Or.inl (stack_setState session id _ other)) rfl

/-- Either no body runs in a move, or the body of a new call starts, or that of the topmost frame
goes on. -/
theorem move_cases
    {session after : Session}
    (h : session.Sound)
    (hmove : Move session after) :
    Turns session after ∨
      (∃ id own, session.active = some (id, .before own) ∧ (session.call own).state = .new ∧
        (session.call own).canceled = false ∧
        after = ((session.opening own).begin own).2.advance id own
          ((session.opening own).begin own).1) ∨
      ∃ id outcome frame rest, session.active = some (id, .after outcome) ∧
        (session.task id).stack = frame :: rest ∧
        after = ((session.reopening id rest).resume frame outcome).2.advance id frame.call
          ((session.reopening id rest).resume frame outcome).1 := by
  rcases outside_of_move h.steady hmove with rfl | rfl | houtside
  · rcases hactive : session.active with _ | ⟨id, own | outcome⟩
    · left
      rcases step_of_idle hactive with heq | ⟨id, rest, hready, heq⟩
      · rw [heq]
        exact turns_of_idle (Calls.Flags.refl _) (Rests.refl session) (fun _ => Or.inl rfl) hactive
      · rw [heq]
        have hturns := turns_wake id (h.pop hactive hready) hactive
        exact ⟨hturns.flags, hturns.rests.congr rfl rfl rfl rfl, hturns.framesKept, hturns.before,
          hturns.value⟩
    · by_cases hstate : (session.call own).state = .new
      · cases hflag : (session.call own).canceled with
        | true =>
            left
            rw [step_before_of_canceled hactive hstate hflag]
            exact turns_of_error ((Calls.Flags.refl session.calls).setState own .canceled)
              (rests_refused hstate id _) rfl rfl
        | false =>
            exact Or.inr (Or.inl ⟨id, own, rfl, hstate, hflag,
              step_before_of_new hactive hstate hflag⟩)
      · left
        rw [step_before_of_ne_new hactive hstate]
        exact turns_of_error (Calls.Flags.refl _) (rests_of_calls_eq rfl rfl rfl rfl) rfl rfl
    · cases hstack : (session.task id).stack with
      | nil =>
          left
          rw [step_after_nil hactive hstack]
          have hturns := turns_report { session with active := none } id outcome
          exact ⟨hturns.flags, hturns.rests.congr rfl rfl rfl rfl, hturns.framesKept, hturns.before,
            hturns.value⟩
      | cons frame rest =>
          exact Or.inr (Or.inr ⟨id, outcome, frame, rest, rfl, hstack,
            step_after_cons hactive hstack⟩)
  · left
    unfold breakOff
    rcases hactive : session.active with _ | ⟨id, point⟩
    · exact turns_of_idle (Calls.Flags.refl _) (Rests.refl session) (fun _ => Or.inl rfl) hactive
    · exact turns_of_error (Calls.Flags.refl _) (rests_of_calls_eq rfl rfl rfl rfl) rfl rfl
  · exact Or.inl (turns_of_idle houtside.flags houtside.rests houtside.framesKept houtside.stays)

/-- No move takes back that a call was canceled. -/
theorem flags_of_move
    {session after : Session}
    (h : session.Sound)
    (hmove : Move session after) :
    session.calls.Flags after.calls := by
  rcases move_cases h hmove with hturns | ⟨id, own, hactive, hstate, _, rfl⟩ |
    ⟨id, outcome, frame, rest, hactive, hstack, rfl⟩
  · exact hturns.flags
  · have hpiece := piece_opening h hactive hstate
    exact flags_advance hpiece.grows.flags.of_setState id own _
  · have hpiece := piece_reopening h hactive hstack
    exact flags_advance hpiece.grows.flags id frame.call _

/-- A call keeps its plan. -/
theorem plan_of_run
    {session after : Session}
    {id : CallId}
    (h : session.Reachable)
    (hrun : Run session after)
    (hid : id < session.calls.size) :
    (after.call id).plan = (session.call id).plan := by
  have hboth : id < after.calls.size ∧ (after.call id).plan = (session.call id).plan := by
    induction hrun with
    | refl => exact ⟨hid, rfl⟩
    | tail hearlier hlast ih =>
        have hflags := flags_of_move (sound_of_reachable (h.of_run hearlier)) hlast
        exact ⟨Nat.lt_of_lt_of_le ih.1 hflags.size, (hflags.plan id ih.1).trans ih.2⟩
  exact hboth.2

end Session
end TraceArchive
