import TraceArchive.Proofs.Session.Outcomes
import TraceArchive.Proofs.Session.Performing

/-!
# What remains to be computed

Where a task stands in the execution of a call, the frames on its stack say what remains of the
computation, and each of its steps goes on with that.

* `Honors`: what is asked of the surroundings when a task makes a step.
* `Unwinds`, `Remains`: what frames go on with, and what remains where a task stands.
* `advances_before`, `advances_after`: a body begins, and the topmost frame goes on.
* `remains_step`: every step shows something of what remains, and the rest remains after it.
-/

set_option autoImplicit false

namespace TraceArchive

open TraceArchive.Computation

/-- The state in which a call ends that was not canceled. -/
def CallState.ofOutcome : Outcome → CallState
  | .ok _ => .done
  | .error .interrupted => .canceled
  | .error _ => .failed

theorem CallState.isFinal_ofOutcome (outcome : Outcome) :
    (CallState.ofOutcome outcome).isFinal = true := by
  rcases outcome with failure | value
  · cases failure <;> rfl
  · rfl

namespace Session

theorem conclusion_eq_of_not_canceled
    {call : Call}
    (h : call.canceled = false)
    (outcome : Outcome) :
    conclusion call outcome = (.ofOutcome outcome, outcome) := by
  rcases outcome with failure | value
  · cases failure <;> simp [conclusion, h, CallState.ofOutcome]
  · simp [conclusion, h, CallState.ofOutcome]

/-- What observations show, the first to come first. -/
def events (session : Session) (told : List Observation) : List Event :=
  told.filterMap (Observation.event? fun id => (session.call id).plan)

/-- What is asked of the surroundings when a task makes a step: a search is answered as it is said
to be, nobody watches the trace search whose body goes on, and a flat mapper may choose what it
chooses. -/
structure Honors
    (session : Session)
    (names : Names)
    (answers : Answers)
    (asked : Nat)
    (task : TaskId) : Prop where
  answered : ∀ own search, session.active = some (task, .before own) →
    (session.call own).plan = .search search →
      (session.backend session.searches search).result = answers asked search
  unwatched : ∀ own, session.Acts own → session.IsUnwatched own
  offers : ∀ value own mapper rest stage, session.active = some (task, .after (.ok value)) →
    (session.task task).stack = .first own mapper :: rest → (mapper value).result = .ok stage →
      session.Offers names stage

/-! ### What remains -/

/-- What frames of calls that were not canceled go on with, once what the topmost one waits for has
an outcome. -/
inductive Unwinds (names : Names) (answers : Answers) (session : Session) :
    List Frame → (Outcome → Computation Value) → Prop
  | nil : Unwinds names answers session [] give
  | cons {frame : Frame} {rest : List Frame} {after last : Outcome → Computation Value}
      (hflag : (session.call frame.call).canceled = false)
      (hpure : (session.call frame.call).plan.IsPure)
      (hframe : frame.Continues names answers (session.call frame.call).plan after)
      (hrest : Unwinds names answers session rest last) :
      Unwinds names answers session (frame :: rest) fun outcome =>
        ((after outcome).concluding (session.call frame.call).plan).followedBy last

/-- A task that waits at a gate, or is about to go on from there. -/
def IsPausing (session : Session) (task : TaskId) : Prop :=
  (session.task task).state = .ready .proceed ∨
    ∃ gate, (session.task task).state = .waiting gate

/-- What remains to be computed where a task stands, and the frames that it has above a stack. -/
inductive Remains
    (names : Names)
    (answers : Answers)
    (task : TaskId)
    (stack : List Frame)
    (session : Session) :
    List Frame → Computation Value → Prop
  | before {own : CallId} {plan : Plan} {body rest : Computation Value} {above : List Frame}
      {last : Outcome → Computation Value}
      (hactive : session.active = some (task, .before own))
      (hstack : (session.task task).stack = above ++ stack)
      (hunwinds : session.Unwinds names answers above last)
      (hunused : session.calls.Unused plan own)
      (hbody : plan.Computes names answers body)
      (hrest : rest = (within plan body).followedBy last) :
      Remains names answers task stack session above rest
  | after {outcome : Outcome} {rest : Computation Value} {above : List Frame}
      {last : Outcome → Computation Value}
      (hactive : session.active = some (task, .after outcome))
      (hstack : (session.task task).stack = above ++ stack)
      (hunwinds : session.Unwinds names answers above last)
      (hrest : rest = last outcome) :
      Remains names answers task stack session above rest
  | pauses {rest : Computation Value} {above : List Frame} {last : Outcome → Computation Value}
      (hpausing : session.IsPausing task)
      (hstack : (session.task task).stack = above ++ stack)
      (hunwinds : session.Unwinds names answers above last)
      (hrest : rest = last (.ok .null)) :
      Remains names answers task stack session above rest

variable {names : Names} {answers : Answers}
variable {session after : Session} {task : TaskId} {stack above : List Frame}

theorem IsPausing.of_task_eq
    (h : session.IsPausing task)
    (htask : after.task task = session.task task) :
    after.IsPausing task := by
  rw [IsPausing, htask]
  exact h

theorem IsPausing.lt
    (h : session.IsPausing task) :
    task < session.tasks.size := by
  by_cases hlt : task < session.tasks.size
  · exact hlt
  · rw [IsPausing, task_eq_default (Nat.not_lt.mp hlt)] at h
    rcases h with hready | ⟨gate, hwaiting⟩
    · cases hready
    · cases hwaiting

theorem IsPausing.ne_running
    (h : session.IsPausing task) :
    (session.task task).state ≠ .running := by
  intro hrunning
  rw [IsPausing, hrunning] at h
  rcases h with hready | ⟨gate, hwaiting⟩
  · cases hready
  · cases hwaiting

/-- It only matters what the plans and the flags of the frames' calls are. -/
theorem Unwinds.congr
    {last : Outcome → Computation Value}
    (h : session.Unwinds names answers above last)
    (hplan : ∀ frame ∈ above, (after.call frame.call).plan = (session.call frame.call).plan)
    (hflag : ∀ frame ∈ above, (after.call frame.call).canceled = false) :
    after.Unwinds names answers above last := by
  induction h with
  | nil => exact .nil
  | @cons frame rest next last _ hpure hframe _ ih =>
      obtain ⟨hplan, hplans⟩ := List.forall_mem_cons.mp hplan
      obtain ⟨hflag, hflags⟩ := List.forall_mem_cons.mp hflag
      rw [← hplan] at hpure hframe ⊢
      exact .cons hflag hpure hframe (ih hplans hflags)

theorem Unwinds.not_canceled
    {last : Outcome → Computation Value}
    (h : session.Unwinds names answers above last) :
    ∀ frame ∈ above, (session.call frame.call).canceled = false := by
  induction h with
  | nil => simp
  | cons hflag _ _ _ ih => exact List.forall_mem_cons.mpr ⟨hflag, ih⟩

/-- What changes one call only leaves what the frames go on with alone. -/
theorem Unwinds.of_alters
    {own : CallId}
    {last : Outcome → Computation Value}
    (h : session.Unwinds names answers above last)
    (halters : session.calls.Alters own after.calls)
    (hlt : ∀ frame ∈ above, frame.call < session.calls.size) :
    after.Unwinds names answers above last :=
  h.congr (fun frame hframe => halters.plan frame.call (hlt frame hframe)) fun frame hframe =>
    (halters.canceled frame.call (hlt frame hframe)).trans (h.not_canceled frame hframe)

/-! ### The steps of the task -/

/-- The task has gone on in the body of a call, with a computation: what was observed of it shows
how far the computation has come, and the frames that the task had are still there. -/
structure Advances
    (names : Names)
    (answers : Answers)
    (task : TaskId)
    (stack : List Frame)
    (own : CallId)
    (plan : Plan)
    (asked : Nat)
    (computation : Computation Value)
    (session after : Session)
    (above above' : List Frame)
    (news : List Observation)
    (rest : Computation Value) : Prop where
  journal : after.journal = news.reverse ++ session.journal
  about : ∀ entry ∈ news, ∀ id, entry.actor? = some id → id = own
  comes : computation.Comes asked (news.filterMap (Observation.event? fun _ => plan)) rest
  remains : after.Remains names answers task stack above' rest
  kept : ∀ frame ∈ above, frame.call = own ∨ frame ∈ above'
  ended : (∃ outcome, .concluded own outcome ∈ news) ∨ ∃ frame ∈ above', frame.call = own
  state : ∀ outcome, .concluded own outcome ∈ news →
    (after.call own).state = .ofOutcome outcome

section Advancing

variable {own : CallId} {plan : Plan} {asked : Nat} {last : Outcome → Computation Value}

/-- A body that ends hands its outcome to the frames. -/
theorem advances_ends
    (hengaged : session.Engaged task own)
    (hstack : (session.task task).stack = above ++ stack)
    (hunwinds : session.Unwinds names answers above last)
    (hflag : (session.call own).canceled = false)
    (outcome : Outcome) :
    Advances names answers task stack own plan asked
      (((give outcome).concluding plan).followedBy last) session
      (session.advance task own (.ends outcome)) above above [.concluded own outcome]
      (last outcome) := by
  have hconclusion := conclusion_eq_of_not_canceled hflag outcome
  have halters := alters_advance session task own (.ends outcome)
  have hlt : ∀ frame ∈ above, frame.call < session.calls.size := fun frame hframe =>
    ((hengaged.steady.framesHold task).holds frame
      (hstack ▸ List.mem_append_left stack hframe)).1
  have hclosed : ((session.closing own outcome).call own).state = .ofOutcome outcome := by
    have hget : (session.closing own outcome).call own = _ :=
      (Calls.get_modify hengaged.call _ own).trans (if_pos rfl)
    rw [hget, hconclusion]
  have hunwinds' := hunwinds.of_alters halters hlt
  rw [advance_ends] at hunwinds' ⊢
  refine ⟨?_, by simp [Observation.actor?], ?_, ?_, fun _ => Or.inr, ?_, ?_⟩
  · show Observation.concluded own (conclusion (session.call own) outcome).2 :: _ = _
    rw [hconclusion]
    rfl
  · have hcomes := (comes_tell_bind (.concluded plan outcome) asked fun _ => give outcome).followedBy
      last
    rw [give_followedBy] at hcomes
    rw [concluding, give_followedBy]
    exact hcomes
  · rw [hconclusion] at hunwinds' ⊢
    exact .after rfl hstack hunwinds' rfl
  · exact Or.inl ⟨outcome, List.mem_singleton_self _⟩
  · intro other hother
    cases List.mem_singleton.mp hother
    exact hclosed

/-- A body that leaves a frame goes on with it before the other frames. -/
theorem Unwinds.push
    {frame : Frame}
    {next : Outcome → Computation Value}
    (h : session.Unwinds names answers above last)
    (hplan : (session.call own).plan = plan)
    (hpure : plan.IsPure)
    (hflag : (session.call own).canceled = false)
    (hcall : frame.call = own)
    (hframe : frame.Continues names answers plan next)
    (hcalls : after.calls = session.calls) :
    after.Unwinds names answers (frame :: above) fun outcome =>
      ((next outcome).concluding plan).followedBy last := by
  have hsame : ∀ id, after.call id = session.call id := fun id => by rw [call, call, hcalls]
  have hown : (after.call frame.call).plan = plan := by rw [hsame, hcall, hplan]
  rw [← hown] at hpure hframe ⊢
  refine .cons (by rw [hsame, hcall, hflag]) hpure hframe (h.congr ?_ ?_)
  · exact fun below _ => by rw [hsame]
  · exact fun below hbelow => by rw [hsame, h.not_canceled below hbelow]

theorem advances_of_frame
    {frame : Frame}
    {computation : Computation Value}
    (hcall : frame.call = own)
    (hjournal : after.journal = session.journal)
    (hremains : after.Remains names answers task stack (frame :: above) computation) :
    Advances names answers task stack own plan asked computation session after above
      (frame :: above) [] computation :=
  ⟨hjournal, by simp, Comes.refl _ asked, hremains,
    fun _ hmem => Or.inr (List.mem_cons_of_mem frame hmem),
    Or.inr ⟨frame, List.mem_cons_self, hcall⟩, by simp⟩

/-- A body that executes a call, or waits, leaves a frame. -/
theorem advances_pushing
    {progress : Progress}
    {rest : Computation Value}
    (hengaged : session.Engaged task own)
    (hstack : (session.task task).stack = above ++ stack)
    (hunwinds : session.Unwinds names answers above last)
    (hplan : (session.call own).plan = plan)
    (hpure : plan.IsPure)
    (hflag : (session.call own).canceled = false)
    (hfits : progress.Fits own session.calls)
    (hleaves : progress.Leaves names answers session.calls plan rest)
    (hgoing : ∀ outcome, progress ≠ .ends outcome) :
    ∃ frame, Advances names answers task stack own plan asked
      ((rest.concluding plan).followedBy last) session (session.advance task own progress) above
      (frame :: above) [] ((rest.concluding plan).followedBy last) := by
  cases hleaves with
  | ends outcome => exact absurd rfl (hgoing outcome)
  | @executes next frame stage body after hunused hbody hframe =>
      obtain ⟨hcall, hframeFits, _, _⟩ := hfits
      obtain ⟨_, _, htask⟩ := hengaged.pushing hcall hframeFits
      refine ⟨frame, advances_of_frame hcall rfl ?_⟩
      refine .before rfl ?_ (hunwinds.push hplan hpure hflag hcall hframe rfl) hunused hbody
        (concluding_followedBy plan _ after last)
      exact (congrArg Task.stack htask).trans (congrArg (frame :: ·) hstack)
  | @waits gate frame after hframe =>
      obtain ⟨hcall, hframeFits, _⟩ := hfits
      obtain ⟨_, hlt, htask⟩ := hengaged.pushing hcall hframeFits
      have hframes : ((session.pushing task frame).task task).stack = (frame :: above) ++ stack :=
        (congrArg Task.stack htask).trans (congrArg (frame :: ·) hstack)
      refine ⟨frame, ?_⟩
      rcases advance_waits session task own gate frame with heq | ⟨place, heq⟩
      · rw [heq]
        exact advances_of_frame hcall rfl
          (.after rfl hframes (hunwinds.push hplan hpure hflag hcall hframe rfl) rfl)
      · rw [heq]
        refine advances_of_frame hcall rfl (.pauses (Or.inr ⟨place, ?_⟩) ?_
          (hunwinds.push hplan hpure hflag hcall hframe rfl) rfl)
        · exact state_setState_self hlt _
        · exact (stack_setState _ task _ task).trans hframes

/-- What a piece of a body has shown comes before what its end shows. -/
theorem Performs.trans_advances
    {before : Session}
    {result : Progress × Session}
    {body rest rest' : Computation Value}
    {news more : List Observation}
    {above' : List Frame}
    (hperforms : Performs names answers plan own asked body before result news rest)
    (h : Advances names answers task stack own plan
      (asked + Event.searches (news.filterMap (Observation.event? fun _ => plan)))
      ((rest.concluding plan).followedBy last) result.2 after above above' more rest') :
    Advances names answers task stack own plan asked ((body.concluding plan).followedBy last)
      before after above above' (news ++ more) rest' := by
  have hcomes := (hperforms.comes.followedBy fun outcome => do
    tell (.concluded plan outcome)
    give outcome).followedBy last
  refine ⟨?_, ?_, ?_, h.remains, h.kept, ?_, ?_⟩
  · rw [h.journal, hperforms.journal, List.reverse_append, List.append_assoc]
  · intro entry hentry
    rcases List.mem_append.mp hentry with hearlier | hlater
    · exact hperforms.about entry hearlier
    · exact h.about entry hlater
  · rw [List.filterMap_append]
    exact hcomes.trans h.comes
  · exact h.ended.imp_left fun ⟨outcome, hmem⟩ => ⟨outcome, List.mem_append_right news hmem⟩
  · intro outcome hmem
    rcases List.mem_append.mp hmem with hearlier | hlater
    · exact absurd hearlier (hperforms.unended outcome)
    · exact h.state outcome hlater

/-- A piece of a body and where the task goes on from there. -/
theorem advances_of_performs
    {before : Session}
    {result : Progress × Session}
    {body rest : Computation Value}
    {news : List Observation}
    (hperforms : Performs names answers plan own asked body before result news rest)
    (hengaged : result.2.Engaged task own)
    (hstack : (result.2.task task).stack = above ++ stack)
    (hunwinds : result.2.Unwinds names answers above last)
    (hplan : (result.2.call own).plan = plan)
    (hpure : plan.IsPure)
    (hflag : (result.2.call own).canceled = false)
    (hfits : result.1.Fits own result.2.calls) :
    ∃ above' more rest', Advances names answers task stack own plan asked
        ((body.concluding plan).followedBy last) before (result.2.advance task own result.1) above
        above' (news ++ more) rest' ∧
      (Speaks own news result.1 → ∃ entry ∈ news ++ more, entry.actor? = some own) := by
  by_cases hends : ∃ outcome, result.1 = .ends outcome
  · obtain ⟨outcome, hprogress⟩ := hends
    have hleaves := hperforms.leaves
    rw [hprogress] at hleaves
    cases hleaves
    refine ⟨above, [.concluded own outcome], last outcome, hperforms.trans_advances ?_, fun _ =>
      ⟨.concluded own outcome, by simp, rfl⟩⟩
    rw [hprogress]
    exact advances_ends hengaged hstack hunwinds hflag outcome
  · obtain ⟨frame, hadvances⟩ := advances_pushing hengaged hstack hunwinds hplan hpure hflag hfits
      hperforms.leaves fun outcome hprogress => hends ⟨outcome, hprogress⟩
    refine ⟨_, [], _, hperforms.trans_advances hadvances, ?_⟩
    rintro (hended | ⟨entry, hentry, hactor⟩)
    · exact absurd hended hends
    · exact ⟨entry, List.mem_append_left [] hentry, hactor⟩

/-- The body of an unused call begins. -/
theorem advances_before
    {body : Computation Value}
    (h : session.Sound)
    (hactive : session.active = some (task, .before own))
    (hstack : (session.task task).stack = above ++ stack)
    (hunwinds : session.Unwinds names answers above last)
    (hunused : session.calls.Unused plan own)
    (hbody : plan.Computes names answers body)
    (hhonors : session.Honors names answers asked task) :
    ∃ above' news rest, Advances names answers task stack own plan asked
        ((within plan body).followedBy last) session session.step above above' news rest ∧
      ∃ entry ∈ news, entry.actor? = some own := by
  have hown := hunused.isUntouched
  have hengaged := engaged_opening h hactive hown.state
  have hpiece := piece_opening h hactive hown.state
  have hopening := alters_opening session own
  have hplan : ((session.opening own).call own).plan = plan :=
    (hopening.plan own hown.lt).trans hown.plan
  have hflag : ((session.opening own).call own).canceled = false :=
    (hopening.canceled own hown.lt).trans hown.canceled
  have hbegun : ((session.opening own).call own).state ≠ .new := fun hnew =>
    absurd (hengaged.executing.symm.trans hnew) (by decide)
  have hunwatched : (session.opening own).IsUnwatched own := fun search hsearch =>
    hhonors.unwatched own ⟨task, Or.inl hactive⟩ search
      (hown.plan.trans (hplan.symm.trans hsearch))
  have hstage : ∀ first, plan.stage? = some first → ∃ stage,
      ((session.opening own).call own).first = some stage ∧
        (session.opening own).calls.Unused first stage := by
    intro first hfirst
    obtain ⟨stage, hlt, hsome, hstage⟩ := hunused.stage hfirst
    refine ⟨stage, (hopening.first own hown.lt).trans hsome, hstage.of_eq hopening.size ?_⟩
    intro other hle _ hother
    exact hopening.others other hother (Nat.ne_of_lt (Nat.lt_of_le_of_lt hle hlt))
  obtain ⟨news, rest, hperforms⟩ := performs_begin hengaged.call hplan hbegun hflag hunwatched hstage
    (fun search hsearch => hhonors.answered own search hactive (hown.plan.trans hsearch)) hbody
  have halters := alters_begin hunwatched
  have hlt : ∀ frame ∈ above, frame.call < session.calls.size := fun frame hframe =>
    ((h.steady.framesHold task).holds frame (hstack ▸ List.mem_append_left stack hframe)).1
  obtain ⟨above', more, rest', hadvances, _⟩ := advances_of_performs hperforms
    (hengaged.of_piece hpiece)
    ((congrArg Task.stack (task_eq_of_tasks_eq hpiece.keeps.tasks task)).trans hstack)
    (hunwinds.of_alters (hopening.trans halters) hlt) ((halters.plan own hengaged.call).trans hplan)
    hbody.isPure ((halters.canceled own hengaged.call).trans hflag) hpiece.fits
  rw [step_before_of_new hactive hown.state hown.canceled]
  refine ⟨above', .began own :: (news ++ more), rest', ?_, .began own, List.mem_cons_self, rfl⟩
  have hcomes := (comes_tell_bind (.began plan) asked fun _ => concluding plan body).followedBy last
  refine ⟨?_, ?_, hcomes.trans hadvances.comes, hadvances.remains, hadvances.kept, ?_, ?_⟩
  · rw [hadvances.journal, List.reverse_cons, List.append_assoc]
    rfl
  · exact List.forall_mem_cons.mpr ⟨fun id hid => (Option.some.inj hid).symm, hadvances.about⟩
  · exact hadvances.ended.imp_left fun ⟨outcome, hmem⟩ => ⟨outcome, List.mem_cons_of_mem _ hmem⟩
  · intro outcome hmem
    rcases List.mem_cons.mp hmem with heq | hlater
    · cases heq
    · exact hadvances.state outcome hlater

/-- The body of the topmost frame goes on. -/
theorem advances_after
    {outcome : Outcome}
    {frame : Frame}
    (h : session.Sound)
    (hactive : session.active = some (task, .after outcome))
    (hstack : (session.task task).stack = (frame :: above) ++ stack)
    (hunwinds : session.Unwinds names answers (frame :: above) last)
    (hhonors : session.Honors names answers asked task) :
    ∃ above' news rest, Advances names answers task stack frame.call
        (session.call frame.call).plan asked (last outcome) session session.step (frame :: above)
        above' news rest ∧
      ∃ entry ∈ news, entry.actor? = some frame.call := by
  have hengaged := engaged_reopening h hactive hstack
  have hpiece := piece_reopening h hactive hstack
  have hacts : session.Acts frame.call :=
    ⟨task, Or.inr ⟨outcome, frame, above ++ stack, hactive, hstack, rfl⟩⟩
  have hbegun : ((session.reopening task (above ++ stack)).call frame.call).state ≠ .new :=
    fun hnew => absurd (hengaged.executing.symm.trans hnew) (by decide)
  have hunwatched : (session.reopening task (above ++ stack)).IsUnwatched frame.call :=
    hhonors.unwatched frame.call hacts
  have hoffers : ∀ own mapper value stage, frame = .first own mapper → outcome = .ok value →
      (mapper value).result = .ok stage →
        (session.reopening task (above ++ stack)).Offers names stage := by
    rintro own mapper value stage rfl rfl hresult
    have hoffered := hhonors.offers value own mapper (above ++ stack) stage hactive hstack hresult
    cases stage <;> exact hoffered
  cases hunwinds with
  | cons hflag hpure hframe hrest =>
      obtain ⟨news, rest, hperforms, hspeaks⟩ := performs_resume hengaged.call hengaged.formed rfl
        (h.steady.fits hstack) hbegun hflag hunwatched hoffers hframe
      have halters := alters_resume hengaged.formed (h.steady.fits hstack) hpure hunwatched outcome
      have hlt : ∀ below ∈ above, below.call < session.calls.size := fun below hbelow =>
        ((h.steady.framesHold task).holds below
          (hstack ▸ List.mem_append_left stack (List.mem_cons_of_mem frame hbelow))).1
      have htask := task_reopening (h.running task _ hactive).1 (above ++ stack) task
      rw [if_pos rfl] at htask
      obtain ⟨above', more, rest', hadvances, hshows⟩ := advances_of_performs hperforms
        (hengaged.of_piece hpiece)
        (congrArg Task.stack ((task_eq_of_tasks_eq hpiece.keeps.tasks task).trans htask))
        (hrest.of_alters halters hlt) (halters.plan frame.call hengaged.call) hpure
        ((halters.canceled frame.call hengaged.call).trans hflag) hpiece.fits
      rw [step_after_cons hactive hstack]
      refine ⟨above', _, rest', ⟨hadvances.journal, hadvances.about, hadvances.comes,
        hadvances.remains, ?_, hadvances.ended, hadvances.state⟩, hshows hspeaks⟩
      exact List.forall_mem_cons.mpr ⟨Or.inl rfl, hadvances.kept⟩

end Advancing

/-- Every step of the task goes on with what remains. -/
theorem remains_step
    {point : Point}
    {asked : Nat}
    {computation : Computation Value}
    (h : session.Sound)
    (hremains : session.Remains names answers task stack above computation)
    (hactive : session.active = some (task, point))
    (hinside : ∀ outcome, point = .after outcome → above ≠ [])
    (hhonors : session.Honors names answers asked task) :
    ∃ own above' news rest, own < session.calls.size ∧
      (session.step.call own).plan = (session.call own).plan ∧
      Advances names answers task stack own (session.call own).plan asked computation session
        session.step above above' news rest ∧
      ∃ entry ∈ news, entry.actor? = some own := by
  have hflags := flags_of_move h (Move.step session)
  cases hremains with
  | before hbefore hstack hunwinds hunused hbody hrest =>
      subst hrest
      have hown := hunused.isUntouched
      obtain ⟨above', news, rest, hadvances, hshows⟩ :=
        advances_before h hbefore hstack hunwinds hunused hbody hhonors
      refine ⟨_, above', news, rest, hown.lt, hflags.plan _ hown.lt, ?_, hshows⟩
      rw [Session.call, hown.plan]
      exact hadvances
  | after hafter hstack hunwinds hrest =>
      subst hrest
      rw [hafter] at hactive
      cases hactive
      cases above with
      | nil => exact absurd rfl (hinside _ rfl)
      | cons frame below =>
          obtain ⟨above', news, rest, hadvances, hshows⟩ :=
            advances_after h hafter hstack hunwinds hhonors
          have hlt := (engaged_reopening h hafter hstack).call
          exact ⟨frame.call, above', news, rest, hlt, hflags.plan _ hlt, hadvances, hshows⟩
  | pauses hpausing _ _ _ => exact absurd (h.running task point hactive).2 hpausing.ne_running

end Session
end TraceArchive
