import TraceArchive.Proofs.Session.Quiet
import TraceArchive.Proofs.Session.Stacks
import TraceArchive.Proofs.Session.Stopping

/-!
# What the first execution of a call comes to

Whatever happens in the course of it, the first execution of a call comes to an outcome that agrees
with the state of the call, and a call that was canceled in time has no value.

* `canceled_of_cancels`, `canceled_of_run`, `exists_cancels`: the flag of a call says whether it was
  canceled so far.
* `FirstExecution`: from the step in which a task comes to a new call until the call returns.
* `returns_of_firstExecution`: state and outcome agree when the call returns.
-/

set_option autoImplicit false

namespace TraceArchive
namespace Session

/-! ### The flag of a call -/

theorem canceled_of_cancels
    {session after : Session}
    {id : CallId}
    (h : session.Sound)
    (hheeds : (session.call id).plan.ignoresCancel = false)
    (hcancels : Cancels id session after) :
    (after.call id).canceled = true :=
  (canceled_of_move_iff h hcancels.move hcancels.lt hheeds).mpr (Or.inr hcancels)

/-- A call that was canceled stays so. -/
theorem canceled_of_run
    {session after : Session}
    {id : CallId}
    (h : session.Reachable)
    (hrun : Run session after)
    (hcanceled : (session.call id).canceled = true) :
    (after.call id).canceled = true := by
  induction hrun with
  | refl => exact hcanceled
  | tail hearlier hlast ih =>
      exact (flags_of_move (sound_of_reachable (h.of_run hearlier)) hlast).canceled id
        (lt_size_of_canceled ih) ih

theorem canceled_of_isFresh
    {calls : Calls}
    {id : CallId}
    (h : calls.IsFresh id) :
    (calls.get id).canceled = false := by
  obtain ⟨plan, first, hget, _⟩ := h
  rw [hget]
  rfl

theorem Piece.canceled_of_size_le
    {own id : CallId}
    {session : Session}
    {result : Progress × Session}
    (h : Piece own session result)
    (hid : session.calls.size ≤ id)
    (task : TaskId) :
    ((result.2.advance task own result.1).call id).canceled = false := by
  rw [canceled_advance]
  by_cases hnew : id < result.2.calls.size
  · exact canceled_of_isFresh (h.grows.fresh id hnew hid)
  · rw [call, Calls.get_eq_default (Nat.not_lt.mp hnew)]
    rfl

/-- A call that a move adds has not been canceled. -/
theorem canceled_of_size_le
    {session after : Session}
    {id : CallId}
    (h : session.Sound)
    (hmove : Move session after)
    (hid : session.calls.size ≤ id) :
    (after.call id).canceled = false := by
  rcases move_cases h hmove with hturns | ⟨task, own, hactive, hstate, _, rfl⟩ |
    ⟨task, outcome, frame, rest, hactive, hstack, rfl⟩
  · by_cases hnew : id < after.calls.size
    · exact canceled_of_isFresh (hturns.rests.fresh id hnew hid)
    · rw [call, Calls.get_eq_default (Nat.not_lt.mp hnew)]
      rfl
  · exact (piece_opening h hactive hstate).canceled_of_size_le
      ((size_opening session own).symm ▸ hid) task
  · exact (piece_reopening h hactive hstack).canceled_of_size_le hid task

/-- A call that is canceled was canceled in some move before. -/
theorem exists_cancels
    {session : Session}
    {id : CallId}
    (h : session.Reachable)
    (hcanceled : (session.call id).canceled = true) :
    ∃ earlier later, earlier.Reachable ∧ Cancels id earlier later ∧ Run later session := by
  obtain ⟨backend, hrun⟩ := h
  induction hrun with
  | refl =>
      have hnone : ((start backend).call id).canceled = false :=
        congrArg Call.canceled (Calls.get_eq_default (Nat.zero_le id))
      exact absurd (hcanceled.symm.trans hnone) (by decide)
  | @tail middle after hearlier hlast ih =>
      have hreachable : middle.Reachable := ⟨backend, hearlier⟩
      cases hbefore : (middle.call id).canceled with
      | true =>
          obtain ⟨earlier, later, hfirst, hcancels, hlater⟩ := ih hbefore
          exact ⟨earlier, later, hfirst, hcancels, hlater.tail hlast⟩
      | false =>
          by_cases hid : id < middle.calls.size
          · have htold := exists_isTold_of_raised (sound_of_reachable hreachable) hlast hid hbefore
              hcanceled
            exact ⟨middle, after, hreachable, ⟨hid, htold⟩, Relation.ReflTransGen.refl⟩
          · have hnot := canceled_of_size_le (sound_of_reachable hreachable) hlast
              (Nat.not_lt.mp hid)
            exact absurd (hcanceled.symm.trans hnot) (by decide)

/-! ### First executions -/

/-- The first execution of a call goes on: a task has come to the call while it was new, and the
call has not ended before the last move. -/
inductive FirstExecution (id : CallId) (task : TaskId) (session : Session) : Session → Prop
  | starts
      (hactive : session.active = some (task, .before id))
      (hnew : (session.call id).state = .new) :
      FirstExecution id task session session.step
  | goesOn {middle after : Session}
      (hbefore : FirstExecution id task session middle)
      (hopen : (middle.call id).state.isFinal = false)
      (hmove : Move middle after) :
      FirstExecution id task session after

theorem FirstExecution.run
    {id : CallId}
    {task : TaskId}
    {session after : Session}
    (h : FirstExecution id task session after) :
    Run session after := by
  induction h with
  | starts => exact Relation.ReflTransGen.single (Move.step session)
  | goesOn _ _ hmove ih => exact ih.tail hmove

theorem FirstExecution.lt
    {id : CallId}
    {task : TaskId}
    {session after : Session}
    (hfirst : FirstExecution id task session after)
    (h : session.Reachable) :
    id < session.calls.size := by
  induction hfirst with
  | starts hactive => exact ((sound_of_reachable h).standing task id hactive).1
  | goesOn _ _ _ ih => exact ih

/-- In its first execution a call is in its body, or it has returned in the last move. -/
theorem FirstExecution.hosts_or_returns
    {id : CallId}
    {task : TaskId}
    {session after : Session}
    (hfirst : FirstExecution id task session after)
    (h : session.Reachable) :
    after.Hosts id task (session.task task).stack ∨
      ∃ outcome, after.Returns id task (session.task task).stack outcome := by
  induction hfirst with
  | starts hactive hnew => exact hosts_or_returns_step (sound_of_reachable h) hactive hnew
  | goesOn hbefore hopen hmove ih =>
      rcases ih with hhosts | ⟨outcome, hreturns⟩
      · exact hhosts.of_move (sound_of_reachable (h.of_run hbefore.run)) hmove
      · exact absurd (hreturns.agrees.isFinal.symm.trans hopen) (by decide)

/-- **State and outcome agree.**  When the first execution of a call has ended, its task goes on
with an outcome from where it came to the call: a value if and only if the call is done, and then it
was not canceled; the call is canceled if and only if it was canceled by then or its task was
interrupted in it; and it has failed with any other failure, and in no other case.  The flag is up
exactly when canceling has reached the call in some move so far, from a call that was told from
outside, by a mapper or by someone who watched; nothing that arrives after that makes it done or
failed. -/
theorem returns_of_firstExecution
    {id : CallId}
    {task : TaskId}
    {session after : Session}
    (h : session.Reachable)
    (hheeds : (session.call id).plan.ignoresCancel = false)
    (hfirst : FirstExecution id task session after)
    (hfinal : (after.call id).state.isFinal = true) :
    (∃ outcome, after.Returns id task (session.task task).stack outcome) ∧
      ((after.call id).canceled = true → ∃ earlier later,
        earlier.Reachable ∧ Cancels id earlier later ∧ Run later after) ∧
      ∀ earlier later, earlier.Reachable → Cancels id earlier later → Run later after →
        (after.call id).canceled = true ∧ (after.call id).state = .canceled := by
  have hreturns := (hfirst.hosts_or_returns h).resolve_left fun hhosts => by
    rw [hhosts.executing] at hfinal
    cases hfinal
  refine ⟨hreturns, exists_cancels (h.of_run hfirst.run), ?_⟩
  intro earlier later hreachable hcancels hlater
  have hsound := sound_of_reachable hreachable
  have hplan : (earlier.call id).plan = (session.call id).plan := by
    have hrun : Run earlier after := hlater.head hcancels.move
    rw [← plan_of_run h hfirst.run (hfirst.lt h)]
    exact (plan_of_run hreachable hrun hcancels.lt).symm
  have hflag : (after.call id).canceled = true :=
    canceled_of_run (hreachable.of_move hcancels.move) hlater
      (canceled_of_cancels hsound (hplan ▸ hheeds) hcancels)
  obtain ⟨outcome, hreturned⟩ := hreturns
  exact ⟨hflag, hreturned.agrees.canceled.mpr (Or.inl hflag)⟩

/-- A task comes to a leaf that waits at a gate, on behalf of a mapped call. -/
def comingToLeaf : Session :=
  let session := (start (.scripted [])).define "leaf" (.recording ⟨.null, none, some "gate", false⟩)
  let session := session.defineOn "whole"
    (.mapped (session.call 0).plan Mapper.identity) 0
  (session.spawn "task" 1 .caller).settle 2

/-- The whole is canceled while the leaf waits, and then the gate opens. -/
def lateResult : Session :=
  (((comingToLeaf.step.cancel 1).2.openGate "gate").step).step

theorem reachable_comingToLeaf : comingToLeaf.Reachable := by
  refine ⟨.scripted [], Relation.ReflTransGen.trans ?_ (run_settle 2 _)⟩
  refine Relation.ReflTransGen.tail ?_ (Move.spawn _ _ _ _ rfl (by decide +kernel))
  refine Relation.ReflTransGen.tail ?_ (Move.map _ _ _ _ rfl (by decide +kernel))
  exact Relation.ReflTransGen.single (Move.define _ _ _ rfl)

theorem firstExecution_lateResult : FirstExecution 0 0 comingToLeaf lateResult := by
  refine FirstExecution.goesOn ?_ rfl (Move.step _)
  refine FirstExecution.goesOn ?_ rfl (Move.step _)
  refine FirstExecution.goesOn ?_ rfl (Move.openGate _ "gate" rfl)
  refine FirstExecution.goesOn ?_ rfl (Move.cancel _ 1 rfl (by decide +kernel))
  exact FirstExecution.starts rfl rfl

/-- What arrives at the leaf after that is given up, and the whole goes on with a failure. -/
theorem returns_lateResult :
    (∃ outcome, lateResult.Returns 0 0 [.mapped 1 Mapper.identity] outcome) ∧
      (lateResult.call 0).state = .canceled := by
  have hreturns :=
    returns_of_firstExecution reachable_comingToLeaf rfl firstExecution_lateResult rfl
  have hcancels : Cancels 0 comingToLeaf.step (comingToLeaf.step.cancel 1).2 :=
    ⟨by decide +kernel, 1, IsTold.outside _ rfl (by decide +kernel), by decide +kernel⟩
  have hlater : Run (comingToLeaf.step.cancel 1).2 lateResult := by
    refine Relation.ReflTransGen.tail ?_ (Move.step _)
    refine Relation.ReflTransGen.tail ?_ (Move.step _)
    exact Relation.ReflTransGen.single (Move.openGate _ "gate" rfl)
  exact ⟨hreturns.1, (hreturns.2.2 _ _ (reachable_comingToLeaf.of_move (Move.step _))
    hcancels hlater).2⟩

end Session
end TraceArchive
