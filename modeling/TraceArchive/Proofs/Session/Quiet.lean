import TraceArchive.Call.Mappers
import TraceArchive.Proofs.Session.Canceling
import TraceArchive.Proofs.Session.Causes

/-!
# Nothing starts on behalf of a canceled call

Once a call is canceled, nothing more starts on its behalf, but for two cases.  A flat mapper that
cancels the call that it works for still has the stage executed that it chose; and a mapper is still
applied to the value of a leaf that ignored canceling.

* `Cancels.isShut`: what is below a call when it is canceled does nothing more.
* `StaysQuietFor`: nothing starts on behalf of a call from now on.
* `staysQuietFor_iff`: a canceled call stays quiet in all other cases, and in those only.
-/

set_option autoImplicit false

namespace TraceArchive

namespace Session

/-- The running task works for a call: it stands before it, or one of its frames is the call's. -/
def WorksFor (session : Session) (id : CallId) : Prop :=
  ∃ task point, session.active = some (task, point) ∧
    (point = .before id ∨ Calls.OnStack id (session.task task).stack)

/-- From now on nothing starts on behalf of a call: in no run does a step of a task that works for
it begin the execution of a call or apply a mapper. -/
def StaysQuietFor (session : Session) (id : CallId) : Prop :=
  ∀ later, Run session later → later.WorksFor id → later.step.starts = later.starts

/-- The running task is about to execute a new call on behalf of a call. -/
def IsIssuingFor (session : Session) (id : CallId) : Prop :=
  ∃ task next, session.active = some (task, .before next) ∧
    Calls.OnStack id (session.task task).stack ∧
    (session.call next).state = .new ∧ (session.call next).canceled = false

/-- The running task comes, on behalf of a call, to a mapper with the value of a leaf that ignores
canceling. -/
def HandsValueFor (session : Session) (id : CallId) : Prop :=
  ∃ task value own mapper rest leaf,
    session.active = some (task, .after (.ok value)) ∧
    (session.task task).stack = .mapped own mapper :: rest ∧
    Calls.OnStack id (session.task task).stack ∧
    (session.call own).first = some leaf ∧ (session.call leaf).plan.ignoresCancel = true

/-- The running task comes, on behalf of a call, to a flat mapper with a value. -/
def FlatMapsFor (session : Session) (id : CallId) : Prop :=
  ∃ task value own mapper rest,
    session.active = some (task, .after (.ok value)) ∧
    (session.task task).stack = .first own mapper :: rest ∧
    Calls.OnStack id (session.task task).stack

/-! ### What canceling reaches -/

theorem Cancels.move
    {session after : Session}
    {id : CallId}
    (h : Cancels id session after) :
    Move session after := by
  obtain ⟨_, htold, _⟩ := h.told
  exact htold.move

/-- What is below a call when it is canceled does nothing more. -/
theorem Cancels.isShut
    {session after : Session}
    {id : CallId}
    (h : Cancels id session after)
    (hsound : session.Sound)
    (htrees : session.calls.IsForest)
    {other : CallId}
    (hother : other < session.calls.size)
    (hbelow : session.calls.Below id other) :
    after.calls.IsShut other := by
  obtain ⟨root, htold, hreached⟩ := h.told
  have hends : session.calls.cancelEnds root = true := by
    refine htrees root (Nat.not_le.mp fun hle => ?_)
    obtain rfl := Calls.eq_of_mem_reached hle hreached
    exact absurd h.lt (Nat.not_lt.mpr hle)
  have hmem := Calls.below_mem_reached hends hreached hbelow
  cases hignores : (session.call other).plan.ignoresCancel with
  | true =>
      have hplan := (flags_of_move hsound h.move).plan other hother
      exact Or.inr ((congrArg Plan.ignoresCancel hplan).trans hignores)
  | false => exact Or.inl (canceled_of_isTold hsound htold hother hignores hmem)

/-! ### A call that is canceled is shut -/

theorem isShut_of_advance
    {session : Session}
    {task : TaskId}
    {own other : CallId}
    {progress : Progress}
    (h : (session.advance task own progress).calls.IsShut other) :
    session.calls.IsShut other := by
  have hplan := (resembles_advance session task own progress).plan other
  rcases h with hcanceled | hignores
  · exact Or.inl ((canceled_advance session task own progress other).symm.trans hcanceled)
  · exact Or.inr ((congrArg Plan.ignoresCancel hplan).symm.trans hignores)

theorem shutBody_of_below
    {opened : Session}
    {task : TaskId}
    {own id : CallId}
    {result : Progress × Session}
    (hengaged : opened.Engaged task own)
    (hpiece : Piece own opened result)
    (hid : id < opened.calls.size)
    (hheeds : (opened.call id).plan.ignoresCancel = false)
    (hshut : ∀ other < opened.calls.size, opened.calls.Below id other →
      result.2.calls.IsShut other) :
    result.2.ShutBody id task own := by
  have htask := task_eq_of_tasks_eq hpiece.keeps.tasks
  have hstacks := hengaged.steady.framesHold
  refine ⟨Nat.lt_of_lt_of_le hid hpiece.grows.size, ?_, ?_, ?_⟩
  · rcases hshut id hid Relation.ReflTransGen.refl with hcanceled | hignores
    · exact hcanceled
    · rw [hpiece.grows.plan id hid] at hignores
      exact absurd (hignores.symm.trans hheeds) (by decide)
  · intro other
    rw [htask]
    exact Calls.shutAbove_of_isStack hshut (hstacks other)
  · intro hmem
    rw [htask] at hmem
    exact hshut own hengaged.call
      (Calls.below_of_serves (hstacks task).holds hengaged.serves hmem)

/-- A call is canceled while no body runs, or by the piece of a body that runs.  That piece goes on
to another call on behalf of the canceled one only when it is that of a flat mapper. -/
theorem Cancels.cases
    {session after : Session}
    {id : CallId}
    (h : Cancels id session after)
    (hsound : session.Sound)
    (htrees : session.calls.IsForest)
    (hheeds : (session.call id).plan.ignoresCancel = false) :
    Turns session after ∨
      ∃ (task : TaskId) (own : CallId) (result : Progress × Session),
        result.2.Engaged task own ∧ result.1.Fits own result.2.calls ∧
        result.2.ShutBody id task own ∧ after = result.2.advance task own result.1 ∧
        ∀ next frame, result.1 = .executes next frame →
          own = id ∨ Calls.OnStack id (result.2.task task).stack →
            session.FlatMapsFor id ∨ (result.2.call own).canceled = false := by
  have hshut : ∀ other < session.calls.size, session.calls.Below id other →
      after.calls.IsShut other :=
    fun other => h.isShut hsound htrees
  have hid := h.lt
  rcases move_cases hsound h.move with hturns | ⟨task, own, hactive, hstate, hflag, heq⟩ |
    ⟨task, outcome, frame, rest, hactive, hstack, heq⟩
  · exact Or.inl hturns
  · right
    have hengaged := engaged_opening hsound hactive hstate
    have hpiece := piece_opening hsound hactive hstate
    have hplan : ((session.opening own).call id).plan = (session.call id).plan :=
      Calls.get_setState Call.plan .executing (fun _ => rfl) session.calls own id
    have hopened : ((session.opening own).call own).canceled = false :=
      (Calls.get_setState Call.canceled .executing (fun _ => rfl) session.calls own own).trans hflag
    have hsize : (session.opening own).calls.size = session.calls.size := Array.size_modify
    have hbelow : ∀ other, (session.opening own).calls.Below id other ↔
        session.calls.Below id other := by
      intro other
      have hdelegates : ∀ other, ((session.opening own).calls.get other).delegates =
          (session.calls.get other).delegates :=
        Calls.get_setState Call.delegates .executing (fun _ => rfl) session.calls own
      simp only [Calls.Below, hdelegates]
    refine ⟨task, own, _, hengaged.of_piece hpiece, hpiece.fits, ?_, heq, ?_⟩
    · refine shutBody_of_below hengaged hpiece (hsize.symm ▸ hid) ?_ ?_
      · exact (congrArg Plan.ignoresCancel hplan).trans hheeds
      · intro other hother hbelow'
        apply isShut_of_advance
        rw [← heq]
        exact hshut other (hsize ▸ hother) ((hbelow other).mp hbelow')
    · intro next frame hexecutes _
      exact Or.inr (canceled_of_begin hengaged.call hopened hexecutes)
  · right
    have hengaged := engaged_reopening hsound hactive hstack
    have hpiece := piece_reopening hsound hactive hstack
    have htask := task_reopening (hsound.running task _ hactive).1 rest
    refine ⟨task, frame.call, _, hengaged.of_piece hpiece, hpiece.fits, ?_, heq, ?_⟩
    · refine shutBody_of_below hengaged hpiece hid hheeds ?_
      intro other hother hbelow
      apply isShut_of_advance
      rw [← heq]
      exact hshut other hother hbelow
    · intro next frame' hexecutes hbehalf
      rcases (canceled_of_resume hengaged.call hexecutes).2 with
        ⟨mapper, value, hframe, rfl⟩ | hflag
      · left
        refine ⟨task, value, frame.call, mapper, rest, hactive, hframe ▸ hstack, ?_⟩
        rw [task_eq_of_tasks_eq hpiece.keeps.tasks, htask, if_pos rfl] at hbehalf
        rw [hstack]
        exact Calls.onStack_cons.mpr hbehalf
      · exact Or.inr hflag

theorem shut_of_cancels
    {session after : Session}
    {id : CallId}
    (h : Cancels id session after)
    (hsound : session.Sound)
    (htrees : session.calls.IsForest)
    (hheeds : (session.call id).plan.ignoresCancel = false)
    (hnot : ¬ after.IsIssuingFor id) :
    after.Shut id := by
  rcases h.cases hsound htrees hheeds with hturns |
    ⟨task, own, result, hengaged, hfits, hbody, rfl, _⟩
  · have hid := h.lt
    have hflags := hturns.flags
    have hshut : ∀ other < session.calls.size, session.calls.Below id other →
        after.calls.IsShut other :=
      fun other => h.isShut hsound htrees
    apply hturns.shut (Nat.lt_of_lt_of_le hid hflags.size)
    · rcases hshut id hid Relation.ReflTransGen.refl with hcanceled | hignores
      · exact hcanceled
      · rw [hflags.plan id hid] at hignores
        exact absurd (hignores.symm.trans hheeds) (by decide)
    · intro task
      rcases hturns.framesKept task with hsame | hnil
      · rw [hsame]
        exact Calls.shutAbove_of_isStack hshut (hsound.steady.framesHold task)
      · rw [hnil]
        trivial
  · refine hbody.advance hengaged hfits ?_
    intro next frame hexecutes hbehalf
    rw [hexecutes] at hfits hnot
    have htask := (hengaged.pushing hfits.1 hfits.2.1).2.2
    have hmem : Calls.OnStack id ((result.2.pushing task frame).task task).stack := by
      rw [htask, Calls.onStack_cons, hfits.1]
      exact hbehalf
    by_cases hstate : (result.2.call next).state = .new
    · cases hflag : (result.2.call next).canceled with
      | true => exact Or.inr rfl
      | false => exact absurd ⟨task, next, rfl, hmem, hstate, hflag⟩ hnot
    · exact Or.inl hstate

/-- Only a flat mapper issues a call on behalf of the call that was canceled meanwhile. -/
theorem flatMapsFor_of_isIssuingFor
    {session after : Session}
    {id : CallId}
    (h : Cancels id session after)
    (hsound : session.Sound)
    (htrees : session.calls.IsForest)
    (hheeds : (session.call id).plan.ignoresCancel = false)
    (hissues : after.IsIssuingFor id) :
    session.FlatMapsFor id := by
  obtain ⟨task, next, hactive, hmem, _, _⟩ := hissues
  rcases h.cases hsound htrees hheeds with hturns |
    ⟨task', own, result, hengaged, hfits, hbody, rfl, hexecutes⟩
  · rw [hturns.before task next hactive] at hmem
    exact absurd hmem (Calls.not_onStack_nil id)
  · cases hprogress : result.1 with
    | ends outcome =>
        rw [hprogress, advance_ends] at hactive
        cases hactive
    | waits gate frame =>
        rw [hprogress] at hactive
        rcases advance_waits result.2 task' own gate frame with heq | ⟨place, heq⟩
        · rw [heq] at hactive
          cases hactive
        · rw [heq] at hactive
          cases hactive
    | executes stage frame =>
        rw [hprogress] at hactive hmem hfits
        cases hactive
        have htask := (hengaged.pushing hfits.1 hfits.2.1).2.2
        have hbehalf : Calls.OnStack id ((result.2.pushing task frame).task task).stack := hmem
        rw [htask, Calls.onStack_cons, hfits.1] at hbehalf
        rcases hexecutes next frame hprogress hbehalf with hmaps | hflag
        · exact hmaps
        · -- The body has just seen that its own call is not canceled, and so does not work for
          -- the one that was.
          have hcanceled := Calls.canceled_of_behalf hbody.canceled hbody.own
            (ignoresCancel_of_executes hfits) hbehalf
          exact absurd (hcanceled.symm.trans hflag) (by decide)

/-! ### What starts -/

@[simp] theorem starts_advance
    (session : Session)
    (task : TaskId)
    (own : CallId)
    (progress : Progress) :
    (session.advance task own progress).starts = session.starts := by
  cases progress with
  | ends outcome =>
      rw [advance_ends]
      exact starts_note_of_not_isStart rfl
  | executes next frame => rfl
  | waits gate frame =>
      obtain ⟨_, _, _, heq⟩ := exists_advance_waits session task own gate frame
      rw [heq]
      rfl

theorem starts_step_of_new
    {session : Session}
    {task : TaskId}
    {own : CallId}
    (hsound : session.Sound)
    (hactive : session.active = some (task, .before own))
    (hstate : (session.call own).state = .new)
    (hflag : (session.call own).canceled = false) :
    session.step.starts = .began own :: session.starts := by
  have hengaged := engaged_opening hsound hactive hstate
  have hworks := works_begin hengaged.formed hengaged.call
  rw [step_before_of_new hactive hstate hflag, starts_advance, hworks.starts]
  exact starts_note_of_isStart rfl

theorem starts_step_of_refused
    {session : Session}
    {task : TaskId}
    {own : CallId}
    (hactive : session.active = some (task, .before own))
    (hrefused : (session.call own).state ≠ .new ∨ (session.call own).canceled = true) :
    session.step.starts = session.starts := by
  by_cases hstate : (session.call own).state = .new
  · rcases hrefused with hnotNew | hflag
    · exact absurd hstate hnotNew
    · rw [step_before_of_canceled hactive hstate hflag]
      rfl
  · rw [step_before_of_ne_new hactive hstate]
    rfl

theorem starts_step_of_applies
    {session : Session}
    {task : TaskId}
    {outcome : Outcome}
    {frame : Frame}
    {rest : List Frame}
    (hsound : session.Sound)
    (hactive : session.active = some (task, .after outcome))
    (hstack : (session.task task).stack = frame :: rest) :
    (session.Applies frame outcome →
      session.step.starts = .applied frame.call :: session.starts) ∧
    (¬ session.Applies frame outcome → session.step.starts = session.starts) := by
  have hengaged := engaged_reopening hsound hactive hstack
  have hfits := hsound.steady.fits hstack
  have happlies : (session.reopening task rest).Applies frame outcome ↔
      session.Applies frame outcome :=
    Iff.rfl
  rw [step_after_cons hactive hstack, starts_advance]
  rcases works_resume hengaged.formed hengaged.call hfits outcome with
    ⟨hmapper, hworks⟩ | ⟨hnone, hworks⟩
  · refine ⟨fun _ => ?_, fun hnot => absurd (happlies.mp hmapper) hnot⟩
    rw [hworks.starts]
    exact starts_note_of_isStart rfl
  · refine ⟨fun hmapper => absurd (happlies.mpr hmapper) hnone, fun _ => ?_⟩
    rw [hworks.starts]
    rfl

/-- On behalf of a shut call, only a mapper of the value of a leaf that ignores canceling is still
applied. -/
theorem Shut.starts_step
    {session : Session}
    {id : CallId}
    (h : session.Shut id)
    (hsound : session.Sound)
    (hworks : session.WorksFor id)
    (hnot : ¬ session.HandsValueFor id) :
    session.step.starts = session.starts := by
  obtain ⟨task, point, hactive, hbehalf⟩ := hworks
  cases point with
  | before own =>
      apply starts_step_of_refused hactive
      rcases hbehalf with hsame | hmem
      · cases hsame
        exact Or.inr h.canceled
      · exact h.before task own hactive hmem
  | after outcome =>
      have hmem : Calls.OnStack id (session.task task).stack := by
        rcases hbehalf with hsame | hmem
        · cases hsame
        · exact hmem
      cases hstack : (session.task task).stack with
      | nil =>
          rw [hstack] at hmem
          exact absurd hmem (Calls.not_onStack_nil id)
      | cons frame rest =>
          apply (starts_step_of_applies hsound hactive hstack).2
          intro happlies
          obtain ⟨hframe, hexecuting, hfits⟩ :=
            (hsound.steady.framesHold task).holds frame (hstack ▸ List.mem_cons_self)
          cases outcome with
          | error failure => cases frame <;> exact False.elim happlies
          | ok value =>
              cases frame with
              | mapped own mapper =>
                  obtain ⟨first, hplan⟩ := hfits
                  obtain ⟨leaf, _, hfirst, _⟩ :=
                    hsound.formed.staged own hframe first (congrArg Plan.first? hplan)
                  have hignores := h.value task value hactive hmem _ rest hstack leaf hfirst
                  exact hnot ⟨task, value, own, mapper, rest, leaf, hactive, hstack, hmem, hfirst,
                    hignores⟩
              | first own mapper =>
                  obtain ⟨first, hplan⟩ := hfits
                  have habove := h.above task
                  rw [hstack] at habove hmem
                  have hheeds := congrArg Plan.ignoresCancel hplan
                  have hcanceled := Calls.canceled_of_behalf h.canceled habove.1 hheeds
                    (Calls.onStack_cons.mp hmem)
                  exact absurd (hcanceled.symm.trans happlies) (by decide)
              | leaf own recording => exact happlies
              | reply own search reply => exact happlies
              | next own => exact happlies
              | listing own search => exact happlies
              | fetching own search ids => exact happlies

theorem starts_step_of_isIssuingFor
    {session : Session}
    {id : CallId}
    (hsound : session.Sound)
    (hissues : session.IsIssuingFor id) :
    session.WorksFor id ∧ session.step.starts ≠ session.starts := by
  obtain ⟨task, next, hactive, hmem, hstate, hflag⟩ := hissues
  refine ⟨⟨task, _, hactive, Or.inr hmem⟩, ?_⟩
  rw [starts_step_of_new hsound hactive hstate hflag]
  exact List.cons_ne_self _ _

theorem starts_step_of_handsValueFor
    {session : Session}
    {id : CallId}
    (hsound : session.Sound)
    (hhands : session.HandsValueFor id) :
    session.WorksFor id ∧ session.step.starts ≠ session.starts := by
  obtain ⟨task, value, own, mapper, rest, leaf, hactive, hstack, hmem, _⟩ := hhands
  refine ⟨⟨task, _, hactive, Or.inr hmem⟩, ?_⟩
  rw [(starts_step_of_applies hsound hactive hstack).1 trivial]
  exact List.cons_ne_self _ _

/-- **A canceled call stays quiet, but for two cases.**  Its own flat mapper canceled it and has
chosen a new call, or a mapper gets the value of a leaf that ignores canceling. -/
theorem staysQuietFor_iff
    {session after : Session}
    {id : CallId}
    (hreachable : session.Reachable)
    (htrees : session.calls.IsForest)
    (hheeds : (session.call id).plan.ignoresCancel = false)
    (hcancels : Cancels id session after) :
    (after.StaysQuietFor id ↔
      ¬ after.IsIssuingFor id ∧ ∀ later, Run after later → ¬ later.HandsValueFor id) ∧
    (after.IsIssuingFor id → session.FlatMapsFor id) := by
  have hsound := sound_of_reachable hreachable
  have hafter := sound_of_move hsound hcancels.move
  refine ⟨⟨?_, ?_⟩, flatMapsFor_of_isIssuingFor hcancels hsound htrees hheeds⟩
  · intro hquiet
    constructor
    · intro hissues
      obtain ⟨hworks, hstarts⟩ := starts_step_of_isIssuingFor hafter hissues
      exact hstarts (hquiet after Relation.ReflTransGen.refl hworks)
    · intro later hrun hhands
      have hlater := sound_of_reachable ((hreachable.of_move hcancels.move).of_run hrun)
      obtain ⟨hworks, hstarts⟩ := starts_step_of_handsValueFor hlater hhands
      exact hstarts (hquiet later hrun hworks)
  · rintro ⟨hnotIssuing, hnoValue⟩ later hrun hworks
    have hshut := shut_of_cancels hcancels hsound htrees hheeds hnotIssuing
    have hlater := sound_of_reachable ((hreachable.of_move hcancels.move).of_run hrun)
    exact (shut_of_run hshut hafter hrun).starts_step hlater hworks (hnoValue later hrun)

/-- A flat mapper has the value of its first stage, and is about to cancel the call that it works
for and to choose another one. -/
def selfCanceling : Session :=
  let session := (start (.scripted [])).define "first" (.constant .null)
  let session := session.define "second" (.constant .null)
  let session := session.defineOn "whole"
    (.flatMapped (session.call 0).plan (FlatMapper.canceling "whole" "second")) 0
  let session := session.spawn "task" 2 .caller
  session.settle 3

theorem reachable_selfCanceling : selfCanceling.Reachable := by
  refine ⟨.scripted [], Relation.ReflTransGen.trans ?_ (run_settle 3 _)⟩
  refine Relation.ReflTransGen.tail ?_ (Move.spawn _ _ _ _ rfl (by decide +kernel))
  refine Relation.ReflTransGen.tail ?_ (Move.flatMap _ _ _ _ rfl (by decide +kernel))
  refine Relation.ReflTransGen.tail ?_ (Move.define _ _ _ rfl)
  exact Relation.ReflTransGen.single (Move.define _ _ _ rfl)

/-- The chosen call is executed although the whole was canceled before. -/
theorem not_staysQuietFor_selfCanceling :
    Cancels 2 selfCanceling selfCanceling.step ∧ ¬ selfCanceling.step.StaysQuietFor 2 := by
  have htrees : selfCanceling.calls.IsForest := by
    unfold Calls.IsForest
    decide +kernel
  have hcancels : Cancels 2 selfCanceling selfCanceling.step :=
    ⟨by decide +kernel, 2, IsTold.mapper selfCanceling
      (.first 2 (FlatMapper.canceling "whole" "second")) .null ⟨0, [], rfl, rfl, rfl⟩
      List.mem_cons_self, by decide +kernel⟩
  refine ⟨hcancels, fun hquiet => ?_⟩
  have hiff := (staysQuietFor_iff reachable_selfCanceling htrees rfl hcancels).1
  have hmem : Calls.OnStack 2 (selfCanceling.step.task 0).stack :=
    ⟨.next 2, List.mem_singleton.mpr rfl, rfl⟩
  exact (hiff.mp hquiet).1 ⟨0, 1, rfl, hmem, rfl, rfl⟩

end Session
end TraceArchive
