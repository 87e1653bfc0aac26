import TraceArchive.Proofs.Session.Canceling
import TraceArchive.Proofs.Session.Searching
import TraceArchive.Proofs.Session.Tasks

/-!
# When a trace search issues nothing more

A trace search issues a search only when its body begins, or is given a value, and the call has not
been canceled.  It issues no other once it has ended, or was canceled, or is about to fail.

* `stages_eq_or_of_move`: when a move issues a search for a call.
* `stages_of_run_of_canceled`: nothing is issued for a call that was canceled.
* `IsFailing`, `stages_of_run_of_ending`: nor for a call whose task was interrupted or goes on with
  a failure, or for one that has ended.
* `step_of_ends`, `step_of_failure`: how an outcome is passed on down the stack.
-/

set_option autoImplicit false

namespace TraceArchive
namespace Session

/-- A call may issue a search: its body is about to begin, or is given a value, and it has not been
canceled. -/
structure MayIssue (session : Session) (id : CallId) : Prop where
  canceled : (session.call id).canceled = false
  goesOn : (∃ task, session.active = some (task, .before id) ∧ (session.call id).state = .new) ∨
    ∃ task given frame rest, session.active = some (task, .after (.ok given)) ∧
      (session.task task).stack = frame :: rest ∧ frame.call = id

/-- A body that goes on issues a search only with a value, and if it was not canceled. -/
theorem stages_resume
    {session : Session}
    {frame : Frame}
    (hown : frame.call < session.calls.size)
    (outcome : Outcome) :
    (session.resume frame outcome).2.stages frame.call = session.stages frame.call ∨
      (session.call frame.call).canceled = false ∧ ∃ given, outcome = .ok given := by
  cases outcome with
  | error failure => exact Or.inl (stages_of_silent (resume_error session frame failure).2 _)
  | ok given =>
      by_cases hlisting : ∃ own search, frame = .listing own search ∧ given.texts ≠ []
      · obtain ⟨own, search, rfl, hids⟩ := hlisting
        rcases resume_listing hown search hids with hgives | hissues
        · exact Or.inl (stages_of_silent hgives.toSilent _)
        · exact Or.inr ⟨(canceled_of_resume hown hissues.progress).1, given, rfl⟩
      · refine Or.inl (stages_of_silent (silent_resume fun own search hframe => ?_) _)
        by_cases hids : given.texts = []
        · exact hids
        · exact absurd ⟨own, search, hframe, hids⟩ hlisting

/-- A move issues a search for a call only if the call may issue one. -/
theorem stages_eq_or_of_move
    {session after : Session}
    (h : session.Sound)
    (hmove : Move session after)
    (id : CallId) :
    after.stages id = session.stages id ∨ session.MayIssue id := by
  rcases move_cases h hmove with hturns | ⟨task, own, hactive, hstate, hflag, rfl⟩ |
    ⟨task, outcome, frame, rest, hactive, hstack, rfl⟩
  · exact Or.inl (stages_of_history_eq (hturns.extends 0).history (by simp))
  · by_cases hsame : id = own
    · subst hsame
      exact Or.inr ⟨hflag, Or.inl ⟨task, hactive, hstate⟩⟩
    · left
      obtain ⟨told, htells, _⟩ := tells_begin (engaged_opening h hactive hstate).call
      have hpiece := (piece_opening h hactive hstate).extends htells
      rw [stages_advance, hpiece.stages_of_ne hsame, stages_opening]
  · rw [stages_advance]
    have hown := (engaged_reopening h hactive hstack).call
    by_cases hsame : id = frame.call
    · subst hsame
      rcases stages_resume hown outcome with hstages | ⟨hflag, given, rfl⟩
      · exact Or.inl hstages
      · exact Or.inr ⟨hflag, Or.inr ⟨task, given, frame, rest, hactive, hstack, rfl⟩⟩
    · obtain ⟨told, htells, _⟩ := tells_resume hown outcome
      have hpiece := (piece_reopening h hactive hstack).extends htells
      exact Or.inl (hpiece.stages_of_ne hsame)

/-- A call that may issue a search is new or executing. -/
theorem MayIssue.isFinal
    {session : Session}
    {id : CallId}
    (h : session.MayIssue id)
    (hsound : session.Sound) :
    (session.call id).state.isFinal = false := by
  rcases h.goesOn with ⟨task, _, hnew⟩ | ⟨task, given, frame, rest, _, hstack, rfl⟩
  · rw [hnew]
    rfl
  · have hframe : frame ∈ (session.task task).stack := hstack ▸ List.mem_cons_self
    have hexecuting := ((hsound.steady.framesHold task).holds frame hframe).2.1
    rw [call, hexecuting]
    rfl

/-- Nothing is issued in a run whose sessions all keep the call from it. -/
theorem stages_of_run
    {session after : Session}
    {id : CallId}
    (keeps : Session → Prop)
    (h : session.Reachable)
    (hrun : Run session after)
    (hkeeps : keeps session)
    (hmove : ∀ earlier later, earlier.Reachable → keeps earlier → Move earlier later → keeps later)
    (hstops : ∀ earlier, earlier.Reachable → keeps earlier → ¬ earlier.MayIssue id) :
    after.stages id = session.stages id := by
  have hboth : keeps after ∧ after.stages id = session.stages id := by
    induction hrun with
    | refl => exact ⟨hkeeps, rfl⟩
    | tail hearlier hlast ih =>
        have hreachable := h.of_run hearlier
        refine ⟨hmove _ _ hreachable ih.1 hlast, ?_⟩
        rcases stages_eq_or_of_move (sound_of_reachable hreachable) hlast id with hsame | hmay
        · exact hsame.trans ih.2
        · exact absurd hmay (hstops _ hreachable ih.1)
  exact hboth.2

theorem lt_size_of_canceled
    {session : Session}
    {id : CallId}
    (h : (session.call id).canceled = true) :
    id < session.calls.size := by
  by_cases hid : id < session.calls.size
  · exact hid
  · rw [call, Calls.get_eq_default (Nat.not_lt.mp hid)] at h
    cases h

/-- A call that was canceled issues nothing more. -/
theorem stages_of_run_of_canceled
    {session after : Session}
    {id : CallId}
    (h : session.Reachable)
    (hrun : Run session after)
    (hcanceled : (session.call id).canceled = true) :
    after.stages id = session.stages id := by
  refine stages_of_run (fun session => (session.call id).canceled = true) h hrun hcanceled ?_ ?_
  · intro earlier later hreachable hflag hmove
    exact (flags_of_move (sound_of_reachable hreachable) hmove).canceled id
      (lt_size_of_canceled hflag) hflag
  · intro earlier _ hflag hmay
    rw [hmay.canceled] at hflag
    cases hflag

/-- A trace search that is canceled has been, whether canceling it ends or not. -/
theorem canceled_cancel
    {session : Session}
    {id : CallId}
    (hid : id < session.calls.size)
    (hplan : (session.call id).plan.ignoresCancel = false) :
    ((session.cancel id).2.call id).canceled = true := by
  have hget := (Calls.get_cancel hid id).trans (if_pos (Calls.self_mem_reached_descent hid))
  have hflag := (congrArg Call.canceled hget).trans (Call.canceled_markCanceled _)
  refine hflag.trans ?_
  rw [← call, hplan, Bool.not_false, Bool.or_true]

/-! ### Failures -/

/-- A call is about to fail: it waits on the stack of a task that was interrupted, or that goes on
with a failure. -/
def IsFailing (session : Session) (id : CallId) : Prop :=
  ∃ task, Calls.OnStack id (session.task task).stack ∧
    ((session.task task).state = .ready .interrupt ∨
      ∃ failure, session.active = some (task, .after (.error failure)))

/-- A call that is about to fail issues nothing. -/
theorem IsFailing.not_mayIssue
    {session : Session}
    {id : CallId}
    (h : session.IsFailing id)
    (hsound : session.Sound) :
    ¬ session.MayIssue id := by
  intro hmay
  obtain ⟨task, ⟨frame, hframe, rfl⟩, hfails⟩ := h
  rcases hmay.goesOn with ⟨other, _, hnew⟩ | ⟨other, given, top, rest, hactive, hstack, hsame⟩
  · have hexecuting := ((hsound.steady.framesHold task).holds frame hframe).2.1
    rw [call, hexecuting] at hnew
    cases hnew
  · have htop : top ∈ (session.task other).stack := hstack ▸ List.mem_cons_self
    have hother : other = task := by
      by_cases heq : other = task
      · exact heq
      · exact absurd hsame (hsound.steady.apart other task heq top htop frame hframe)
    subst hother
    rcases hfails with hinterrupted | ⟨failure, hfailure⟩
    · rw [(hsound.running other _ hactive).2] at hinterrupted
      cases hinterrupted
    · rw [hactive] at hfailure
      cases hfailure

/-- A body that ends hands its outcome down the stack, and leaves its call in a final state. -/
theorem step_of_ends
    {session : Session}
    {id : TaskId}
    {outcome result : Outcome}
    {frame : Frame}
    {rest : List Frame}
    (h : session.Sound)
    (hactive : session.active = some (id, .after outcome))
    (hstack : (session.task id).stack = frame :: rest)
    (hends : ((session.reopening id rest).resume frame outcome).1 = .ends result) :
    let given := (conclusion
      (((session.reopening id rest).resume frame outcome).2.call frame.call) result).2
    session.step.active = some (id, .after given) ∧
      (session.step.task id).stack = rest ∧
      (session.step.call frame.call).state.isFinal = true ∧
      session.step.history = .concluded frame.call given ::
        ((session.reopening id rest).resume frame outcome).2.history := by
  have hengaged := (engaged_reopening h hactive hstack).of_piece (piece_reopening h hactive hstack)
  have hkept := task_eq_of_tasks_eq (piece_reopening h hactive hstack).keeps.tasks id
  rw [step_after_cons hactive hstack, hends, advance_ends]
  generalize ((session.reopening id rest).resume frame outcome).2 = after at *
  refine ⟨rfl, ?_, ?_, ?_⟩
  · refine (congrArg Task.stack hkept).trans ?_
    rw [task_reopening (h.running id _ hactive).1, if_pos rfl]
  · have hclosed : ((after.closing frame.call result).call frame.call).state =
        (conclusion (after.call frame.call) result).1 :=
      congrArg Call.state ((Calls.get_modify hengaged.call _ _).trans (if_pos rfl))
    exact hclosed ▸ isFinal_conclusion _ _
  · exact history_note_of_subject rfl _

theorem conclusion_error (call : Call) (failure : Failure) :
    (conclusion call (.error failure)).2 = .error failure := by
  cases failure <;> rfl

/-- A failure is passed on down the stack, until the call of the lowest frame has failed. -/
theorem step_of_failure
    {session : Session}
    {id : TaskId}
    {failure : Failure}
    {frame : Frame}
    {rest : List Frame}
    (h : session.Sound)
    (hactive : session.active = some (id, .after (.error failure)))
    (hstack : (session.task id).stack = frame :: rest) :
    session.step.active = some (id, .after (.error failure)) ∧
      (session.step.task id).stack = rest ∧
      (session.step.call frame.call).state.isFinal = true ∧
      session.step.history = .concluded frame.call (.error failure) :: session.history := by
  obtain ⟨hends, hsilent⟩ := resume_error (session.reopening id rest) frame failure
  obtain ⟨hnext, hrest, hfinal, hhistory⟩ := step_of_ends h hactive hstack hends
  rw [conclusion_error] at hnext hhistory
  exact ⟨hnext, hrest, hfinal, hhistory.trans (congrArg _ hsilent.history)⟩

/-! ### Interruptions -/

/-- A call that is about to fail still is after a move, or has ended. -/
theorem IsFailing.of_move
    {session after : Session}
    {id : CallId}
    (hfailing : session.IsFailing id)
    (h : session.Sound)
    (hmove : Move session after) :
    after.IsFailing id ∨ (after.call id).state.isFinal = true := by
  obtain ⟨task, honStack, hinterrupted | ⟨failure, hactive⟩⟩ := hfailing
  · obtain ⟨hstack, hsignal⟩ := waits_of_move h hmove hinterrupted
    exact Or.inl ⟨task, hstack ▸ honStack, hsignal.imp_right fun hactive => ⟨_, hactive⟩⟩
  · rcases eq_step_or_breakOff_of_move h hactive hmove with rfl | rfl
    · cases hstack : (session.task task).stack with
      | nil => exact absurd (hstack ▸ honStack) (Calls.not_onStack_nil id)
      | cons frame rest =>
          obtain ⟨hnext, hrest, hfinal, _⟩ := step_of_failure h hactive hstack
          rw [hstack] at honStack
          rcases Calls.onStack_cons.mp honStack with rfl | hbelow
          · exact Or.inr hfinal
          · exact Or.inl ⟨task, hrest ▸ hbelow, Or.inr ⟨failure, hnext⟩⟩
    · exact Or.inl ⟨task, honStack, Or.inr ⟨.endless, rfl⟩⟩

/-- A call that is about to fail or has ended issues nothing more. -/
theorem stages_of_run_of_ending
    {session after : Session}
    {id : CallId}
    (h : session.Reachable)
    (hrun : Run session after)
    (hending : session.IsFailing id ∨ (session.call id).state.isFinal = true) :
    after.stages id = session.stages id := by
  refine stages_of_run
    (fun session => session.IsFailing id ∨ (session.call id).state.isFinal = true)
    h hrun hending ?_ ?_
  · rintro earlier later hreachable (hfails | hended) hmove
    · exact hfails.of_move (sound_of_reachable hreachable) hmove
    · have hleads := (ages_of_move (sound_of_reachable hreachable) hmove id).leads
      exact Or.inr (hleads.eq_of_isFinal hended ▸ hended)
  · rintro earlier hreachable (hfails | hended) hmay
    · exact hfails.not_mayIssue (sound_of_reachable hreachable) hmay
    · rw [hmay.isFinal (sound_of_reachable hreachable)] at hended
      cases hended

theorem lt_size_of_onStack
    {session : Session}
    {task : TaskId}
    {id : CallId}
    (h : Calls.OnStack id (session.task task).stack) :
    task < session.tasks.size := by
  by_cases hlt : task < session.tasks.size
  · exact hlt
  · rw [task_eq_default (Nat.not_lt.mp hlt)] at h
    exact absurd h (Calls.not_onStack_nil id)

/-- A call whose task is canceled while it waits is about to fail. -/
theorem isFailing_cancelTask
    {session : Session}
    {task : TaskId}
    {id : CallId}
    (h : session.Steady)
    (honStack : Calls.OnStack id (session.task task).stack)
    (hstate : (session.task task).state ≠ .running) :
    (session.cancelTask task).2.IsFailing id := by
  have hpoised := h.poised task
  have hne : (session.task task).stack ≠ [] :=
    fun hnil => Calls.not_onStack_nil id (hnil ▸ honStack)
  have hinterrupted : ∀ gates ready, IsFailing { session.updateTask task fun task =>
      { task with state := .ready .interrupt } with gates := gates, ready := ready } id := by
    intro gates ready
    refine ⟨task, ?_, Or.inl ?_⟩
    · exact (stack_setState session task (.ready .interrupt) task).symm ▸ honStack
    · exact state_setState_self (lt_size_of_onStack honStack) _
  unfold Task.IsPoised at hpoised
  unfold cancelTask
  cases hcase : (session.task task).state with
  | running => exact absurd hcase hstate
  | ended outcome =>
      rw [hcase] at hpoised
      exact absurd hpoised hne
  | waiting gate => exact hinterrupted _ _
  | ready signal =>
      rw [hcase] at hpoised
      cases signal with
      | start => exact absurd hpoised hne
      | abandon => exact absurd hpoised hne
      | proceed => exact hinterrupted _ _
      | interrupt => exact hinterrupted _ _

end Session
end TraceArchive
