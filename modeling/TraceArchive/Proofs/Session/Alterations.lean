import TraceArchive.Proofs.Session.Tasks

/-!
# Steps that cancel nothing

The body of a call whose mapper cancels nothing changes its own call only, and adds new ones.

* `Calls.Alters`: one call was changed, and calls were added.
* `Calls.Unused`, `unused_add`: a call that was made for a plan, and of whose stages nothing has
  become yet.
* `Unused.of_alters`: an unused call stays so while the body of another one goes on.
* `Session.Acts`, `alters_step`: what a step of a body changes.
-/

set_option autoImplicit false

namespace TraceArchive

namespace Plan

/-- The plan of the first stage, if there is one. -/
def stage? : Plan → Option Plan
  | .mapped first _ => some first
  | .flatMapped first _ => some first
  | _ => none

/-- The mapper of the plan, if there is one, cancels nothing. -/
def IsPure : Plan → Prop
  | .mapped _ mapper => ∀ value, (mapper value).cancels = []
  | .flatMapped _ mapper => ∀ value, (mapper value).cancels = []
  | _ => True

end Plan

namespace Calls

/-- Only one call was changed, which kept its plan, its first stage and its flag; others were
added. -/
structure Alters (own : CallId) (calls calls' : Calls) : Prop where
  size : calls.size ≤ calls'.size
  others : ∀ id < calls.size, id ≠ own → calls'.get id = calls.get id
  plan : ∀ id < calls.size, (calls'.get id).plan = (calls.get id).plan
  first : ∀ id < calls.size, (calls'.get id).first = (calls.get id).first
  canceled : ∀ id < calls.size, (calls'.get id).canceled = (calls.get id).canceled

theorem Alters.trans
    {own : CallId}
    {calls calls' calls'' : Calls}
    (h : Alters own calls calls')
    (h' : Alters own calls' calls'') :
    Alters own calls calls'' := by
  have hlt : ∀ id < calls.size, id < calls'.size := fun id hid => Nat.lt_of_lt_of_le hid h.size
  refine ⟨Nat.le_trans h.size h'.size, ?_, ?_, ?_, ?_⟩
  · exact fun id hid hne => (h'.others id (hlt id hid) hne).trans (h.others id hid hne)
  · exact fun id hid => (h'.plan id (hlt id hid)).trans (h.plan id hid)
  · exact fun id hid => (h'.first id (hlt id hid)).trans (h.first id hid)
  · exact fun id hid => (h'.canceled id (hlt id hid)).trans (h.canceled id hid)

theorem Adds.alters
    {calls calls' : Calls}
    (h : Adds calls calls')
    (own : CallId) :
    Alters own calls calls' :=
  ⟨h.size, fun id hid _ => h.old id hid, fun id hid => congrArg Call.plan (h.old id hid),
    fun id hid => congrArg Call.first (h.old id hid),
    fun id hid => congrArg Call.canceled (h.old id hid)⟩

theorem Alters.refl (own : CallId) (calls : Calls) : Alters own calls calls :=
  (Adds.refl calls).alters own

/-- A change of one call that leaves its plan, its first stage and its flag alone. -/
theorem alters_modify
    {change : Call → Call}
    (hplan : ∀ call, (change call).plan = call.plan)
    (hfirst : ∀ call, (change call).first = call.first)
    (hcanceled : ∀ call, (change call).canceled = call.canceled)
    (calls : Calls)
    (own : CallId) :
    Alters own calls (calls.modify own change) :=
  ⟨Nat.le_of_eq Array.size_modify.symm, fun _ _ hne => get_modify_of_ne hne change,
    fun id _ => field_modify Call.plan change hplan calls own id,
    fun id _ => field_modify Call.first change hfirst calls own id,
    fun id _ => field_modify Call.canceled change hcanceled calls own id⟩

/-! ### Unused calls -/

/-- A new call of a plan that was not canceled. -/
structure IsUntouched (calls : Calls) (plan : Plan) (id : CallId) : Prop where
  lt : id < calls.size
  plan : (calls.get id).plan = plan
  state : (calls.get id).state = .new
  canceled : (calls.get id).canceled = false

/-- A new call of a plan with new calls for all of its stages, none of them canceled. -/
inductive Unused (calls : Calls) : Plan → CallId → Prop
  | leaf {plan : Plan} {id : CallId}
      (huntouched : calls.IsUntouched plan id)
      (hleaf : plan.stage? = none) :
      Unused calls plan id
  | composed {plan first : Plan} {id stage : CallId}
      (huntouched : calls.IsUntouched plan id)
      (hplan : plan.stage? = some first)
      (hfirst : (calls.get id).first = some stage)
      (hlt : stage < id)
      (hstage : Unused calls first stage) :
      Unused calls plan id

theorem Unused.isUntouched
    {calls : Calls}
    {plan : Plan}
    {id : CallId}
    (h : calls.Unused plan id) :
    calls.IsUntouched plan id := by
  cases h with
  | leaf huntouched _ => exact huntouched
  | composed huntouched _ _ _ _ => exact huntouched

/-- The first stage of an unused call was made before it, and is unused as well. -/
theorem Unused.stage
    {calls : Calls}
    {plan first : Plan}
    {id : CallId}
    (h : calls.Unused plan id)
    (hplan : plan.stage? = some first) :
    ∃ stage < id, (calls.get id).first = some stage ∧ calls.Unused first stage := by
  cases h with
  | leaf _ hleaf => cases hleaf.symm.trans hplan
  | composed _ hsame hfirst hlt hstage =>
      cases hsame.symm.trans hplan
      exact ⟨_, hlt, hfirst, hstage⟩

/-- What leaves the calls up to a number alone leaves an unused call with that number alone. -/
theorem Unused.of_eq
    {calls calls' : Calls}
    {plan : Plan}
    {id : CallId}
    (h : calls.Unused plan id)
    (hsize : calls.size ≤ calls'.size)
    (hget : ∀ other ≤ id, (calls.get other).state = .new → other < calls.size →
      calls'.get other = calls.get other) :
    calls'.Unused plan id := by
  have huntouched : ∀ {plan : Plan} {other : CallId}, calls.IsUntouched plan other →
      calls'.get other = calls.get other → calls'.IsUntouched plan other := by
    intro plan other hother hsame
    exact ⟨Nat.lt_of_lt_of_le hother.lt hsize, hsame ▸ hother.plan, hsame ▸ hother.state,
      hsame ▸ hother.canceled⟩
  induction h with
  | leaf hown hleaf =>
      exact .leaf (huntouched hown (hget _ (Nat.le_refl _) hown.state hown.lt)) hleaf
  | composed hown hplan hfirst hlt hstage ih =>
      have hsame := hget _ (Nat.le_refl _) hown.state hown.lt
      refine .composed (huntouched hown hsame) hplan (hsame ▸ hfirst) hlt (ih ?_)
      exact fun other hother => hget other (Nat.le_trans hother (Nat.le_of_lt hlt))

/-- The body of a call that has begun leaves unused calls alone. -/
theorem Unused.of_alters
    {own id : CallId}
    {calls calls' : Calls}
    {plan : Plan}
    (h : calls.Unused plan id)
    (halters : Alters own calls calls')
    (hbegun : (calls.get own).state ≠ .new) :
    calls'.Unused plan id := by
  refine h.of_eq halters.size fun other _ hstate hlt => halters.others other hlt ?_
  rintro rfl
  exact hbegun hstate

theorem unused_push_leaf
    (calls : Calls)
    {plan : Plan}
    (hleaf : plan.stage? = none) :
    Unused (calls.push plan none).1 plan (calls.push plan none).2 := by
  have hget : (calls.push plan none).1.get calls.size = Call.fresh plan none :=
    get_push_self calls plan none
  refine .leaf ⟨?_, ?_, ?_, ?_⟩ hleaf
  · exact (size_push calls plan none).symm ▸ Nat.lt_succ_self _
  · exact congrArg Call.plan hget
  · exact congrArg Call.state hget
  · exact congrArg Call.canceled hget

/-- A call that is made for an unused one is unused. -/
theorem Unused.push
    {calls : Calls}
    {first plan : Plan}
    {stage : CallId}
    (h : calls.Unused first stage)
    (hplan : plan.stage? = some first) :
    Unused (calls.push plan (some stage)).1 plan (calls.push plan (some stage)).2 := by
  have hget : (calls.push plan (some stage)).1.get calls.size = Call.fresh plan (some stage) :=
    get_push_self calls plan (some stage)
  have hfirst : ((calls.push plan (some stage)).1.get calls.size).first = some stage :=
    congrArg Call.first hget
  have hsize := size_push calls plan (some stage)
  refine .composed ⟨?_, ?_, ?_, ?_⟩ hplan hfirst h.isUntouched.lt ?_
  · exact hsize.symm ▸ Nat.lt_succ_self _
  · exact congrArg Call.plan hget
  · exact congrArg Call.state hget
  · exact congrArg Call.canceled hget
  · exact h.of_eq (hsize ▸ Nat.le_succ _) fun other _ _ hlt => get_push_of_lt hlt plan (some stage)

/-- The calls that are made for a plan are unused. -/
theorem unused_add (calls : Calls) (plan : Plan) :
    Unused (calls.add plan).1 plan (calls.add plan).2 := by
  fun_induction Calls.add calls plan with
  | case1 first mapper inner ih => exact ih.push rfl
  | case2 first mapper inner ih => exact ih.push rfl
  | case3 plan hmapped hflat =>
      refine unused_push_leaf calls ?_
      cases plan with
      | mapped first mapper => exact absurd rfl (hmapped first mapper)
      | flatMapped first mapper => exact absurd rfl (hflat first mapper)
      | _ => rfl

end Calls

namespace Session

/-! ### Trace searches that nobody watches -/

/-- The session in which a trace search has gone to another phase. -/
def entering (session : Session) (own : CallId) (phase : SearchPhase) : Session :=
  (session.note (.logged ("Trace search " ++ (session.call own).phase.name ++ " -> " ++
    phase.name))).updateCall own fun call => { call with phase := phase }

/-- Without watchers a trace search goes to any phase. -/
theorem enterPhase_of_nil
    {session : Session}
    (h : session.watches = [])
    (own : CallId)
    (phase : SearchPhase) :
    session.enterPhase own phase = (.ok (), session.entering own phase) := by
  cases session
  cases h
  rfl

theorem passPhase_of_nil
    {session : Session}
    (h : session.watches = [])
    (own : CallId)
    (phase : SearchPhase)
    (next : Session → Progress × Session) :
    session.passPhase own phase next = next (session.entering own phase) := by
  unfold passPhase
  rw [enterPhase_of_nil h]

theorem alters_updateCall
    {change : Call → Call}
    (hplan : ∀ call, (change call).plan = call.plan)
    (hfirst : ∀ call, (change call).first = call.first)
    (hcanceled : ∀ call, (change call).canceled = call.canceled)
    (session : Session)
    (own : CallId) :
    session.calls.Alters own (session.updateCall own change).calls :=
  Calls.alters_modify hplan hfirst hcanceled session.calls own

theorem alters_setState
    (session : Session)
    (own : CallId)
    (state : CallState) :
    session.calls.Alters own
      (session.updateCall own fun call => { call with state := state }).calls := by
  apply alters_updateCall <;> exact fun _ => rfl

theorem alters_setPhase
    (session : Session)
    (own : CallId)
    (phase : SearchPhase) :
    session.calls.Alters own
      (session.updateCall own fun call => { call with phase := phase }).calls := by
  apply alters_updateCall <;> exact fun _ => rfl

theorem alters_setNext
    (session : Session)
    (own : CallId)
    (next : CallId) :
    session.calls.Alters own
      (session.updateCall own fun call => { call with next := some next }).calls := by
  apply alters_updateCall <;> exact fun _ => rfl

theorem alters_entering
    (session : Session)
    (own : CallId)
    (phase : SearchPhase) :
    session.calls.Alters own (session.entering own phase).calls :=
  alters_setPhase (session.note _) own phase

theorem alters_failPhase
    (session : Session)
    (own : CallId)
    (failure : Failure) :
    session.calls.Alters own (session.failPhase own failure).2.calls :=
  alters_setPhase session own .failed

theorem alters_issue
    (session : Session)
    (own : CallId)
    (search : Search)
    (frame : Frame) :
    session.calls.Alters own (session.issue own search frame).2.calls := by
  unfold issue
  dsimp only
  split
  · exact alters_failPhase session own _
  · have hadded := Calls.added_add session.calls (.search search)
    have hmiddle : session.calls.Alters own (session.add (.search search)).1.calls :=
      hadded.adds.alters own
    exact hmiddle.trans (alters_setNext ((session.add (.search search)).1.note _) own _)

theorem alters_passPhase
    {session : Session}
    (h : session.watches = [])
    {own : CallId}
    {phase : SearchPhase}
    {next : Session → Progress × Session}
    (hnext : ∀ entered : Session, entered.watches = [] →
      entered.calls.Alters own (next entered).2.calls) :
    session.calls.Alters own (session.passPhase own phase next).2.calls := by
  rw [passPhase_of_nil h]
  exact (alters_entering session own phase).trans (hnext (session.entering own phase) h)

/-! ### Pieces of bodies -/

/-- Nobody watches a call, if it is a trace search. -/
def IsUnwatched (session : Session) (own : CallId) : Prop :=
  ∀ search, (session.call own).plan = .traceSearch search → session.watches = []

theorem alters_begin
    {session : Session}
    {own : CallId}
    (h : session.IsUnwatched own) :
    session.calls.Alters own (session.begin own).2.calls := by
  unfold begin
  dsimp only
  cases hplan : (session.call own).plan with
  | recording leaf =>
      apply alters_updateCall <;> exact fun _ => rfl
  | traceSearch search =>
      exact alters_passPhase (h search hplan) fun entered _ => alters_issue entered own _ _
  | constant value => exact .refl own session.calls
  | mapped first mapper => exact .refl own session.calls
  | flatMapped first mapper => exact .refl own session.calls
  | search search => exact .refl own session.calls

theorem applyMapper_of_pure
    {mapper : Value → Mapping Value}
    {value : Value}
    (h : (mapper value).cancels = [])
    (session : Session)
    (own : CallId) :
    session.applyMapper own mapper value =
      (.ends (mapper value).result, session.note (.applied own)) := by
  unfold applyMapper
  dsimp only
  rw [h]
  rfl

section FlatMapper

variable {mapper : Value → Mapping (Stage Plan)} {value : Value} {session : Session} {own : CallId}

/-- A flat mapper that fails, or chooses a call that is not known, ends the body. -/
theorem applyFlatMapper_of_error
    {failure : Failure}
    (hpure : (mapper value).cancels = [])
    (hflag : (session.call own).canceled = false)
    (hchosen : (mapper value).result.bind (session.note (.applied own)).stageCall =
      .error failure) :
    session.applyFlatMapper own mapper value =
      (.ends (.error failure), session.note (.applied own)) := by
  unfold applyFlatMapper
  rw [if_neg (by simp [hflag])]
  dsimp only
  rw [hpure, cancelAll]
  dsimp only
  rw [hchosen]

/-- The body goes on to the call that the flat mapper chose. -/
theorem applyFlatMapper_of_ok
    {chosen : CallId × Session}
    (hpure : (mapper value).cancels = [])
    (hflag : (session.call own).canceled = false)
    (hchosen : (mapper value).result.bind (session.note (.applied own)).stageCall = .ok chosen) :
    session.applyFlatMapper own mapper value =
      (.executes chosen.1 (.next own),
        chosen.2.updateCall own fun call => { call with next := some chosen.1 }) := by
  unfold applyFlatMapper
  rw [if_neg (by simp [hflag])]
  dsimp only
  rw [hpure, cancelAll]
  dsimp only
  rw [hchosen]

theorem alters_applyFlatMapper
    (hpure : (mapper value).cancels = [])
    (hformed : session.Formed)
    (own : CallId) :
    session.calls.Alters own (session.applyFlatMapper own mapper value).2.calls := by
  cases hflag : (session.call own).canceled with
  | true =>
      rw [applyFlatMapper, if_pos hflag]
      exact .refl own session.calls
  | false =>
      have hnoted : (session.note (.applied own)).Formed := ⟨hformed.staged, hformed.labels⟩
      cases hchosen : (mapper value).result.bind (session.note (.applied own)).stageCall with
      | error failure =>
          rw [applyFlatMapper_of_error hpure hflag hchosen]
          exact .refl own session.calls
      | ok chosen =>
          obtain ⟨stage, _, hstage⟩ := exists_stageCall_of_bind hchosen
          rw [applyFlatMapper_of_ok hpure hflag hchosen]
          have hadds := (stageCall_eq_ok hnoted hstage).1
          have hmiddle : session.calls.Alters own chosen.2.calls := hadds.alters own
          exact hmiddle.trans (alters_setNext chosen.2 own chosen.1)

end FlatMapper

theorem alters_assembleFetched
    {session : Session}
    (h : session.watches = [])
    (own : CallId)
    (search : TraceSearch)
    (ids : List String)
    (spans : List Span) :
    session.calls.Alters own (session.assembleFetched own search ids spans).2.calls := by
  unfold assembleFetched
  refine alters_passPhase h fun entered hentered => ?_
  cases Trace.assemble search.criteria search.strict ids spans with
  | error error => exact alters_failPhase entered own _
  | ok traces =>
      dsimp only
      rw [enterPhase_of_nil hentered]
      exact alters_entering entered own .done

theorem alters_fetchListed
    {session : Session}
    (h : session.watches = [])
    (own : CallId)
    (search : TraceSearch)
    (ids : List String) :
    session.calls.Alters own (session.fetchListed own search ids).2.calls := by
  unfold fetchListed
  split
  · exact alters_passPhase h fun entered _ => .refl own entered.calls
  · exact alters_passPhase h fun entered _ => alters_issue entered own _ _

theorem alters_resume
    {session : Session}
    {frame : Frame}
    (hformed : session.Formed)
    (hfits : frame.Fits (session.call frame.call).plan)
    (hpure : (session.call frame.call).plan.IsPure)
    (hunwatched : session.IsUnwatched frame.call)
    (outcome : Outcome) :
    session.calls.Alters frame.call (session.resume frame outcome).2.calls := by
  cases outcome with
  | error failure =>
      cases frame with
      | listing own search => exact alters_failPhase session own failure
      | fetching own search ids => exact alters_failPhase session own failure
      | _ => exact .refl _ session.calls
  | ok value =>
      cases frame with
      | leaf own recording =>
          rw [resume]
          cases recording.failure <;> exact .refl own session.calls
      | reply own search reply => exact .refl own session.calls
      | next own => exact .refl own session.calls
      | mapped own mapper =>
          obtain ⟨first, hplan⟩ := hfits
          have hcancels : ∀ value, (mapper value).cancels = [] := by
            simpa only [hplan, Plan.IsPure] using hpure
          rw [resume, applyMapper_of_pure (hcancels value)]
          exact .refl own session.calls
      | first own mapper =>
          obtain ⟨first, hplan⟩ := hfits
          have hcancels : ∀ value, (mapper value).cancels = [] := by
            simpa only [hplan, Plan.IsPure] using hpure
          exact alters_applyFlatMapper (hcancels value) hformed own
      | listing own search => exact alters_fetchListed (hunwatched search hfits) own search _
      | fetching own search ids =>
          exact alters_assembleFetched (hunwatched search hfits) own search ids _

theorem alters_advance
    (session : Session)
    (task : TaskId)
    (own : CallId)
    (progress : Progress) :
    session.calls.Alters own (session.advance task own progress).calls := by
  cases progress with
  | ends outcome =>
      rw [advance_ends]
      exact alters_setState (session.note _) own _
  | executes next frame => exact .refl own session.calls
  | waits gate frame =>
      obtain ⟨_, _, _, heq⟩ := exists_advance_waits session task own gate frame
      rw [heq]
      exact .refl own session.calls

/-! ### Steps -/

/-- The running task is about to make a step for a call: to execute it, or to go on in its body. -/
def Acts (session : Session) (own : CallId) : Prop :=
  ∃ task, session.active = some (task, .before own) ∨
    ∃ outcome frame rest, session.active = some (task, .after outcome) ∧
      (session.task task).stack = frame :: rest ∧ frame.call = own

theorem alters_opening (session : Session) (own : CallId) :
    session.calls.Alters own (session.opening own).calls :=
  alters_setState { session with active := none } own .executing

/-- **A step for a call changes that call only**, and adds new ones, when its mapper cancels nothing
and nobody watches it. -/
theorem alters_step
    {session : Session}
    {own : CallId}
    (h : session.Sound)
    (hacts : session.Acts own)
    (hpure : (session.call own).plan.IsPure)
    (hunwatched : session.IsUnwatched own) :
    session.calls.Alters own session.step.calls := by
  obtain ⟨task, hactive | ⟨outcome, frame, rest, hactive, hstack, rfl⟩⟩ := hacts
  · by_cases hstate : (session.call own).state = .new
    · cases hflag : (session.call own).canceled with
      | true =>
          rw [step_before_of_canceled hactive hstate hflag]
          exact alters_setState session own .canceled
      | false =>
          rw [step_before_of_new hactive hstate hflag]
          have hopening := alters_opening session own
          have hplan : ((session.opening own).call own).plan = (session.call own).plan :=
            hopening.plan own (h.standing task own hactive).1
          have hopened : (session.opening own).IsUnwatched own := fun search hsearch =>
            hunwatched search (hplan ▸ hsearch)
          exact (hopening.trans (alters_begin hopened)).trans (alters_advance _ task own _)
    · rw [step_before_of_ne_new hactive hstate]
      exact .refl own session.calls
  · rw [step_after_cons hactive hstack]
    have hengaged := engaged_reopening h hactive hstack
    have hresume := alters_resume hengaged.formed (h.steady.fits hstack) hpure hunwatched outcome
    exact Calls.Alters.trans hresume (alters_advance _ task frame.call _)

end Session
end TraceArchive
