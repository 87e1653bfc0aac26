import TraceArchive.Proofs.Session.Remaining

/-!
# Executions compute what plans compute

The execution of an unused call that nobody disturbs shows, step by step, what its plan computes, and
comes to that.

* `Undisturbed`, `GoesOn`: the execution of a call that is neither canceled nor interrupted.
* `remains_of_aside`: moves of others leave what remains to be computed alone.
* `Accounts`: what was told of calls agrees with what has become of them.
* `Undisturbed.comprises`: what was told is what the plan computes first, and the rest remains.
* `Undisturbed.shows`, `Undisturbed.returns`: what is seen meanwhile, and in the end.
* `Undisturbed.computes`: the whole execution.
-/

set_option autoImplicit false

namespace TraceArchive

open TraceArchive.Computation

namespace Session

/-- The execution of a call by a task goes on undisturbed: the task makes some steps, and what was
observed of them was told, the first to come first; between them, while the task waits, anything
may happen, but the calls whose bodies the task is in are not canceled, nor is the task
interrupted. -/
inductive Undisturbed
    (names : Names)
    (answers : Answers)
    (root : CallId)
    (task : TaskId)
    (session : Session) :
    Nat → List Observation → Session → Prop
  | comes
      (hactive : session.active = some (task, .before root)) :
      Undisturbed names answers root task session 0 [] session
  | goesOn {steps : Nat} {told news : List Observation} {middle : Session} {point : Point}
      (hbefore : Undisturbed names answers root task session steps told middle)
      (hopen : (middle.call root).state.isFinal = false)
      (hactive : middle.active = some (task, point))
      (hhonors : middle.Honors names answers (Event.searches (middle.events told)) task)
      (hnews : middle.step.journal = news.reverse ++ middle.journal) :
      Undisturbed names answers root task session (steps + 1) (told ++ news) middle.step
  | aside {steps : Nat} {told : List Observation} {middle after : Session}
      (hbefore : Undisturbed names answers root task session steps told middle)
      (hopen : (middle.call root).state.isFinal = false)
      (haway : ∀ point, middle.active ≠ some (task, point))
      (hmove : Move middle after)
      (hflags : ∀ above, (middle.task task).stack = above ++ (session.task task).stack →
        ∀ frame ∈ above, (after.call frame.call).canceled = false)
      (hsignal : (after.task task).state ≠ .ready .interrupt) :
      Undisturbed names answers root task session steps told after

/-- The task of an undisturbed execution waits, or it is about to make another step, and that goes
on with the execution. -/
def GoesOn
    (names : Names)
    (answers : Answers)
    (root : CallId)
    (task : TaskId)
    (session : Session)
    (steps : Nat)
    (told : List Observation)
    (after : Session) : Prop :=
  after.IsPausing task ∨ (∃ point, after.active = some (task, point)) ∧
    (after.Honors names answers (Event.searches (after.events told)) task → ∃ news,
      Undisturbed names answers root task session (steps + 1) (told ++ news) after.step)

variable {names : Names} {answers : Answers}
variable {session after : Session} {task : TaskId} {stack above : List Frame}

/-! ### While the task waits -/

/-- While a task does not run, its stack stays. -/
theorem stack_of_away
    (h : session.Sound)
    (haway : ∀ point, session.active ≠ some (task, point))
    (hmove : Move session after) :
    (after.task task).stack = (session.task task).stack := by
  rcases hactive : session.active with _ | ⟨runner, point⟩
  · exact stack_of_idle h.steady hactive hmove task
  · rcases eq_step_or_breakOff_of_move h hactive hmove with rfl | rfl
    · refine congrArg Task.stack (task_step_of_ne h hactive ?_)
      rintro rfl
      exact haway point hactive
    · rfl

theorem isPausing_wake
    (h : session.IsPausing task)
    (runner : TaskId) :
    (session.wake runner).IsPausing task ∨
      (session.wake runner).active = some (task, .after (.ok .null)) := by
  by_cases hsame : task = runner
  · subst hsame
    rcases h with hready | ⟨gate, hwaiting⟩
    · right
      unfold wake
      dsimp only
      rw [hready]
      rfl
    · left
      unfold wake
      dsimp only
      rw [hwaiting]
      exact Or.inr ⟨gate, hwaiting⟩
  · left
    refine h.of_task_eq ?_
    unfold wake
    dsimp only
    split
    · exact task_updateTask_of_ne hsame _
    · exact task_updateTask_of_ne hsame _
    · exact task_updateTask_of_ne hsame _
    · exact (task_updateTask_of_ne hsame _).trans (task_updateTask_of_ne hsame _)
    · rfl

theorem isPausing_cancelTask
    (h : session.IsPausing task)
    (other : TaskId) :
    (session.cancelTask other).2.IsPausing task ∨
      ((session.cancelTask other).2.task task).state = .ready .interrupt := by
  by_cases hsame : task = other
  · subst hsame
    right
    unfold cancelTask
    rcases h with hready | ⟨gate, hwaiting⟩
    · rw [hready]
      exact state_setState_self (IsPausing.lt (Or.inl hready)) _
    · rw [hwaiting]
      exact state_setState_self (IsPausing.lt (Or.inr ⟨gate, hwaiting⟩)) _
  · left
    refine h.of_task_eq ?_
    unfold cancelTask
    split
    · rfl
    · rfl
    · exact task_updateTask_of_ne hsame _
    · rfl
    · exact task_updateTask_of_ne hsame _
    · exact task_updateTask_of_ne hsame _

/-- A task that pauses does so until it goes on, or is interrupted. -/
theorem isPausing_of_move
    (h : session.Sound)
    (hpausing : session.IsPausing task)
    (hmove : Move session after) :
    after.IsPausing task ∨ after.active = some (task, .after (.ok .null)) ∨
      (after.task task).state = .ready .interrupt := by
  cases hmove with
  | step =>
      rcases hactive : session.active with _ | ⟨runner, point⟩
      · rcases step_of_idle hactive with heq | ⟨runner, rest, _, heq⟩
        · rw [heq]
          exact Or.inl hpausing
        · rw [heq]
          have hpopped : IsPausing { session with ready := rest } task := hpausing
          exact (isPausing_wake hpopped runner).imp_right Or.inl
      · refine Or.inl (hpausing.of_task_eq (task_step_of_ne h hactive ?_))
        rintro rfl
        exact hpausing.ne_running (h.running task point hactive).2
  | breakOff =>
      refine Or.inl (hpausing.of_task_eq ?_)
      unfold breakOff
      split <;> rfl
  | define label plan hidle => exact Or.inl hpausing
  | map label first mapper hidle hfirst => exact Or.inl hpausing
  | flatMap label first mapper hidle hfirst => exact Or.inl hpausing
  | spawn name call audience hidle hcall =>
      refine Or.inl (hpausing.of_task_eq ?_)
      rw [task_spawn, if_neg (Nat.ne_of_lt hpausing.lt)]
  | cancel call hidle hcall => exact Or.inl hpausing
  | cancelTask other hidle hother => exact (isPausing_cancelTask hpausing other).imp_right Or.inr
  | openGate gate hidle =>
      obtain ⟨_, _, htask⟩ := foldl_proceed (session.gates.waitingAt gate)
        fun other hother => (h.steady.waits_at hother).1
      have hget : (session.openGate gate).task task = _ := htask task
      left
      split at hget
      · exact Or.inl (congrArg Task.state hget)
      · exact hpausing.of_task_eq hget
  | watch phase call hidle hcall => exact Or.inl hpausing

/-- While the task waits, what remains stays. -/
theorem remains_of_aside
    {computation : Computation Value}
    (h : session.Sound)
    (hremains : session.Remains names answers task stack above computation)
    (haway : ∀ point, session.active ≠ some (task, point))
    (hmove : Move session after)
    (hflags : ∀ frame ∈ above, (after.call frame.call).canceled = false)
    (hsignal : (after.task task).state ≠ .ready .interrupt) :
    after.Remains names answers task stack above computation := by
  cases hremains with
  | before hactive _ _ _ _ _ => exact absurd hactive (haway _)
  | after hactive _ _ _ => exact absurd hactive (haway _)
  | pauses hpausing hstack hunwinds hrest =>
      have hframes := (stack_of_away h haway hmove).trans hstack
      have hplans : ∀ frame ∈ above,
          (after.call frame.call).plan = (session.call frame.call).plan := fun frame hframe =>
        (flags_of_move h hmove).plan frame.call ((h.steady.framesHold task).holds frame
          (hstack ▸ List.mem_append_left stack hframe)).1
      have hunwinds' := hunwinds.congr hplans hflags
      rcases isPausing_of_move h hpausing hmove with hstill | hgoing | hinterrupted
      · exact .pauses hstill hframes hunwinds' hrest
      · exact .after hgoing hframes hunwinds' hrest
      · exact absurd hinterrupted hsignal

/-! ### What was told -/

theorem event?_congr
    {plans plans' : CallId → Plan}
    {entry : Observation}
    (h : ∀ id, entry.actor? = some id → plans id = plans' id) :
    entry.event? plans = entry.event? plans' := by
  cases entry with
  | began id => exact congrArg (some ∘ Event.began) (h id rfl)
  | applied id => exact congrArg (some ∘ Event.applied) (h id rfl)
  | issued id stage => exact congrArg (some ∘ Event.issued) (h id rfl)
  | concluded id outcome =>
      exact congrArg (fun plan => some (Event.concluded plan outcome)) (h id rfl)
  | _ => rfl

theorem filterMap_event?_congr
    {plans plans' : CallId → Plan}
    {told : List Observation}
    (h : ∀ entry ∈ told, ∀ id, entry.actor? = some id → plans id = plans' id) :
    told.filterMap (Observation.event? plans) = told.filterMap (Observation.event? plans') := by
  induction told with
  | nil => rfl
  | cons entry rest ih =>
      obtain ⟨hentry, hrest⟩ := List.forall_mem_cons.mp h
      rw [List.filterMap_cons, List.filterMap_cons, event?_congr hentry, ih hrest]

/-- What is observed of a call shows something of its plan. -/
theorem filterMap_event?_ne_nil
    {plans : CallId → Plan}
    {told : List Observation}
    {entry : Observation}
    {id : CallId}
    (hentry : entry ∈ told)
    (hactor : entry.actor? = some id) :
    told.filterMap (Observation.event? plans) ≠ [] := by
  obtain ⟨event, hevent⟩ : ∃ event, entry.event? plans = some event := by
    cases entry <;> first | exact ⟨_, rfl⟩ | cases hactor
  exact List.ne_nil_of_mem (List.mem_filterMap.mpr ⟨entry, hentry, hevent⟩)

/-- What was told of calls agrees with what has become of them: a body that has begun has ended or is
on the stack, and one that has ended left its call in the state that goes with its outcome. -/
structure Accounts (session : Session) (above : List Frame) (told : List Observation) : Prop where
  known : ∀ entry ∈ told, ∀ id, entry.actor? = some id → id < session.calls.size
  began : ∀ id, .began id ∈ told →
    (∃ outcome, .concluded id outcome ∈ told) ∨ ∃ frame ∈ above, frame.call = id
  state : ∀ id outcome, .concluded id outcome ∈ told →
    (session.call id).state = .ofOutcome outcome

theorem Accounts.events_eq
    {told : List Observation}
    (h : session.Accounts above told)
    (hsound : session.Sound)
    (hmove : Move session after) :
    after.events told = session.events told :=
  filterMap_event?_congr fun entry hentry id hactor =>
    (flags_of_move hsound hmove).plan id (h.known entry hentry id hactor)

/-- A final state stays. -/
theorem state_of_move
    {id : CallId}
    {outcome : Outcome}
    (h : session.Sound)
    (hmove : Move session after)
    (hstate : (session.call id).state = .ofOutcome outcome) :
    (after.call id).state = .ofOutcome outcome := by
  have hfinal := hstate ▸ CallState.isFinal_ofOutcome outcome
  exact ((ages_of_move h hmove id).leads.eq_of_isFinal hfinal).trans hstate

theorem Accounts.of_move
    {told : List Observation}
    (h : session.Accounts above told)
    (hsound : session.Sound)
    (hmove : Move session after) :
    after.Accounts above told :=
  ⟨fun entry hentry id hactor => Nat.lt_of_lt_of_le (h.known entry hentry id hactor)
      (flags_of_move hsound hmove).size,
    h.began, fun id outcome hmem => state_of_move hsound hmove (h.state id outcome hmem)⟩

theorem Advances.accounts
    {own : CallId}
    {plan : Plan}
    {asked : Nat}
    {computation rest : Computation Value}
    {above' : List Frame}
    {told news : List Observation}
    (hadvances : Advances names answers task stack own plan asked computation session session.step
      above above' news rest)
    (h : session.Accounts above told)
    (hsound : session.Sound)
    (hown : own < session.calls.size) :
    session.step.Accounts above' (told ++ news) := by
  have hold := h.of_move hsound (Move.step session)
  have hlt := Nat.lt_of_lt_of_le hown (flags_of_move hsound (Move.step session)).size
  refine ⟨?_, ?_, ?_⟩
  · intro entry hentry id hactor
    rcases List.mem_append.mp hentry with hearlier | hlater
    · exact hold.known entry hearlier id hactor
    · exact hadvances.about entry hlater id hactor ▸ hlt
  · intro id hbegan
    have hended : id = own → (∃ outcome, .concluded id outcome ∈ told ++ news) ∨
        ∃ frame ∈ above', frame.call = id := by
      rintro rfl
      exact hadvances.ended.imp_left fun ⟨outcome, hmem⟩ =>
        ⟨outcome, List.mem_append_right told hmem⟩
    rcases List.mem_append.mp hbegan with hearlier | hlater
    · rcases h.began id hearlier with ⟨outcome, hmem⟩ | ⟨frame, hframe, rfl⟩
      · exact Or.inl ⟨outcome, List.mem_append_left news hmem⟩
      · rcases hadvances.kept frame hframe with hsame | hkept
        · exact hended hsame
        · exact Or.inr ⟨frame, hkept, rfl⟩
    · exact hended (hadvances.about _ hlater id rfl)
  · intro id outcome hmem
    rcases List.mem_append.mp hmem with hearlier | hlater
    · exact hold.state id outcome hearlier
    · have hsame := hadvances.about _ hlater id rfl
      subst hsame
      exact hadvances.state outcome hlater

/-! ### Whole executions -/

theorem Undisturbed.starts
    {root : CallId}
    {steps : Nat}
    {told : List Observation}
    (h : Undisturbed names answers root task session steps told after) :
    session.active = some (task, .before root) := by
  induction h with
  | comes hactive => exact hactive
  | goesOn _ _ _ _ _ ih => exact ih
  | aside _ _ _ _ _ _ ih => exact ih

/-- An undisturbed execution is a first execution, once the task has made a step. -/
theorem Undisturbed.firstExecution
    {root : CallId}
    {steps : Nat}
    {told : List Observation}
    (h : Undisturbed names answers root task session steps told after)
    (hnew : (session.call root).state = .new) :
    after = session ∨ FirstExecution root task session after := by
  have hstarts := h.starts
  induction h with
  | comes => exact Or.inl rfl
  | @goesOn steps told news middle point _ hopen hactive _ _ ih =>
      right
      rcases ih with rfl | hfirst
      · exact .starts hstarts hnew
      · exact .goesOn hfirst hopen (Move.step middle)
  | aside _ hopen haway hmove _ _ ih =>
      right
      rcases ih with rfl | hfirst
      · exact absurd hstarts (haway _)
      · exact .goesOn hfirst hopen hmove

/-- How far an undisturbed execution has come: what was told shows what the computation shows first,
and the rest of it remains. -/
structure Comprises
    (names : Names)
    (answers : Answers)
    (task : TaskId)
    (stack : List Frame)
    (whole : Computation Value)
    (steps : Nat)
    (told : List Observation)
    (session : Session)
    (above : List Frame)
    (rest : Computation Value) : Prop where
  remains : session.Remains names answers task stack above rest
  comes : whole.Comes 0 (session.events told) rest
  accounts : session.Accounts above told
  steps : steps ≤ (session.events told).length

/-- Where a first execution has not returned, its task stands in it. -/
theorem FirstExecution.above_ne_nil
    {root : CallId}
    (hfirst : FirstExecution root task session after)
    (h : session.Reachable)
    (hopen : (after.call root).state.isFinal = false)
    (hstack : (after.task task).stack = above ++ (session.task task).stack) :
    above ≠ [] := by
  rintro rfl
  rcases hfirst.hosts_or_returns h with hhosts | ⟨outcome, hreturns⟩
  · obtain ⟨pushed, frame, _, hhosted⟩ := hhosts.hosted
    have hlength := congrArg List.length (hhosted.symm.trans hstack)
    simp only [List.length_append, List.length_cons, List.length_nil] at hlength
    omega
  · exact absurd (hreturns.agrees.isFinal.symm.trans hopen) (by decide)

theorem Remains.stack_eq
    {computation : Computation Value}
    (h : session.Remains names answers task stack above computation) :
    (session.task task).stack = above ++ stack := by
  cases h with
  | before _ hstack _ _ _ _ => exact hstack
  | after _ hstack _ _ => exact hstack
  | pauses _ hstack _ _ => exact hstack

/-- Where an undisturbed execution has not returned, its task stands in it. -/
theorem Undisturbed.inside
    {root : CallId}
    {steps : Nat}
    {told : List Observation}
    {point : Point}
    (hundisturbed : Undisturbed names answers root task session steps told after)
    (h : session.Reachable)
    (hnew : (session.call root).state = .new)
    (hopen : (after.call root).state.isFinal = false)
    (hstack : (after.task task).stack = above ++ (session.task task).stack)
    (hactive : after.active = some (task, point)) :
    ∀ outcome, point = .after outcome → above ≠ [] := by
  rintro outcome rfl
  rcases hundisturbed.firstExecution hnew with rfl | hfirst
  · cases hactive.symm.trans hundisturbed.starts
  · exact hfirst.above_ne_nil h hopen hstack

/-- A step of the task is what comes next in its execution. -/
theorem Comprises.step
    {whole rest : Computation Value}
    {steps : Nat}
    {told : List Observation}
    {point : Point}
    (hcomprises : Comprises names answers task stack whole steps told session above rest)
    (h : session.Sound)
    (hactive : session.active = some (task, point))
    (hinside : ∀ outcome, point = .after outcome → above ≠ [])
    (hhonors : session.Honors names answers (Event.searches (session.events told)) task) :
    ∃ news above' rest', session.step.journal = news.reverse ++ session.journal ∧
      Comprises names answers task stack whole (steps + 1) (told ++ news) session.step above'
        rest' := by
  obtain ⟨own, above', news, rest', hown, hplan, hadvances, entry, hentry, hactor⟩ :=
    remains_step h hcomprises.remains hactive hinside hhonors
  have hshown : session.step.events news =
      news.filterMap (Observation.event? fun _ => (session.call own).plan) :=
    filterMap_event?_congr fun entry hmem id hid => by rw [hadvances.about entry hmem id hid, hplan]
  have hevents : session.step.events (told ++ news) = session.events told ++
      news.filterMap (Observation.event? fun _ => (session.call own).plan) := by
    rw [events, List.filterMap_append]
    exact congrArg₂ _ (hcomprises.accounts.events_eq h (Move.step session)) hshown
  refine ⟨news, above', rest', hadvances.journal, hadvances.remains, ?_,
    hadvances.accounts hcomprises.accounts h hown, ?_⟩
  · rw [hevents]
    exact hcomprises.comes.trans ((Nat.zero_add _).symm ▸ hadvances.comes)
  · rw [hevents, List.length_append]
    exact Nat.add_le_add hcomprises.steps
      (List.length_pos_iff.mpr (filterMap_event?_ne_nil hentry hactor))

/-- An undisturbed execution has come as far as was told. -/
theorem Undisturbed.comprises
    {root : CallId}
    {plan : Plan}
    {body : Computation Value}
    {steps : Nat}
    {told : List Observation}
    (hundisturbed : Undisturbed names answers root task session steps told after)
    (h : session.Reachable)
    (hunused : session.calls.Unused plan root)
    (hbody : plan.Computes names answers body) :
    after.Reachable ∧ ∃ above rest, Comprises names answers task (session.task task).stack
      (within plan body) steps told after above rest := by
  have hnew := hunused.isUntouched.state
  induction hundisturbed with
  | comes hactive =>
      exact ⟨h, [], _, .before hactive rfl .nil hunused hbody (followedBy_give _).symm,
        Comes.refl _ 0, ⟨by simp, by simp, by simp⟩, Nat.le_refl 0⟩
  | @goesOn steps told news middle point hbefore hopen hactive hhonors hnews ih =>
      obtain ⟨hreachable, above, rest, hcomprises⟩ := ih
      have hinside := hbefore.inside h hnew hopen hcomprises.remains.stack_eq hactive
      obtain ⟨same, above', rest', hjournal, hnext⟩ :=
        hcomprises.step (sound_of_reachable hreachable) hactive hinside hhonors
      have hsame : same = news :=
        List.reverse_inj.mp (List.append_cancel_right (hjournal.symm.trans hnews))
      subst hsame
      exact ⟨hreachable.of_move (Move.step middle), above', rest', hnext⟩
  | @aside steps told middle after hbefore hopen haway hmove hflags hsignal ih =>
      obtain ⟨hreachable, above, rest, hcomprises⟩ := ih
      have hsound := sound_of_reachable hreachable
      have hevents := hcomprises.accounts.events_eq hsound hmove
      refine ⟨hreachable.of_move hmove, above, rest, ?_, hevents ▸ hcomprises.comes,
        hcomprises.accounts.of_move hsound hmove, hevents ▸ hcomprises.steps⟩
      exact remains_of_aside hsound hcomprises.remains haway hmove
        (hflags above hcomprises.remains.stack_eq) hsignal

/-- What is seen of an undisturbed execution is what its plan computes first, and every step of the
task shows something. -/
theorem Undisturbed.shows
    {root : CallId}
    {plan : Plan}
    {body : Computation Value}
    {steps : Nat}
    {told : List Observation}
    (hundisturbed : Undisturbed names answers root task session steps told after)
    (h : session.Reachable)
    (hunused : session.calls.Unused plan root)
    (hbody : plan.Computes names answers body) :
    after.events told <+: (within plan body 0).1 ∧ steps ≤ (after.events told).length := by
  obtain ⟨_, above, rest, hcomprises⟩ := hundisturbed.comprises h hunused hbody
  exact ⟨⟨_, (congrArg Prod.fst hcomprises.comes).symm⟩, hcomprises.steps⟩

/-- Until it returns, the task of an undisturbed execution makes another step, or waits. -/
theorem Undisturbed.continues
    {root : CallId}
    {plan : Plan}
    {body : Computation Value}
    {steps : Nat}
    {told : List Observation}
    (hundisturbed : Undisturbed names answers root task session steps told after)
    (h : session.Reachable)
    (hunused : session.calls.Unused plan root)
    (hbody : plan.Computes names answers body)
    (hopen : (after.call root).state.isFinal = false) :
    GoesOn names answers root task session steps told after := by
  obtain ⟨hreachable, above, rest, hcomprises⟩ := hundisturbed.comprises h hunused hbody
  have hgoesOn : ∀ point, after.active = some (task, point) →
      GoesOn names answers root task session steps told after := by
    refine fun point hactive => Or.inr ⟨⟨point, hactive⟩, fun hhonors => ?_⟩
    have hinside := hundisturbed.inside h hunused.isUntouched.state hopen
      hcomprises.remains.stack_eq hactive
    obtain ⟨news, _, _, hjournal, _⟩ :=
      hcomprises.step (sound_of_reachable hreachable) hactive hinside hhonors
    exact ⟨news, .goesOn hundisturbed hopen hactive hhonors hjournal⟩
  cases hcomprises.remains with
  | before hactive _ _ _ _ _ => exact hgoesOn _ hactive
  | after hactive _ _ _ => exact hgoesOn _ hactive
  | pauses hpausing _ _ _ => exact Or.inl hpausing

/-- An undisturbed execution returns with what its plan computes, and all of that has been told. -/
theorem Undisturbed.returns
    {root : CallId}
    {plan : Plan}
    {body : Computation Value}
    {steps : Nat}
    {told : List Observation}
    (hundisturbed : Undisturbed names answers root task session steps told after)
    (h : session.Reachable)
    (hunused : session.calls.Unused plan root)
    (hbody : plan.Computes names answers body)
    (hfinal : (after.call root).state.isFinal = true) :
    after.Returns root task (session.task task).stack (within plan body 0).2 ∧
      within plan body 0 = (after.events told, (within plan body 0).2) ∧ after.Accounts [] told := by
  obtain ⟨hreachable, above, rest, hcomprises⟩ := hundisturbed.comprises h hunused hbody
  have hnew : (session.call root).state = .new := hunused.isUntouched.state
  obtain ⟨outcome, hreturns⟩ : ∃ outcome,
      after.Returns root task (session.task task).stack outcome := by
    rcases hundisturbed.firstExecution hnew with rfl | hfirst
    · rw [hnew] at hfinal
      cases hfinal
    · refine (hfirst.hosts_or_returns h).resolve_left fun hhosts => ?_
      rw [hhosts.executing] at hfinal
      cases hfinal
  have hnil : above = [] :=
    List.self_eq_append_left.mp (hreturns.stack.symm.trans hcomprises.remains.stack_eq)
  subst hnil
  have hrest : rest = give outcome := by
    cases hcomprises.remains with
    | before hactive _ _ _ _ _ => cases hactive.symm.trans hreturns.active
    | after hactive _ hunwinds hlast =>
        cases hactive.symm.trans hreturns.active
        cases hunwinds
        exact hlast
    | pauses hpausing _ _ _ =>
        have hrunning := ((sound_of_reachable hreachable).running task _ hreturns.active).2
        exact absurd hrunning hpausing.ne_running
  have hwhole : within plan body 0 = (after.events told, outcome) := by
    have hcomes := hcomprises.comes
    rw [Comes, hrest] at hcomes
    exact hcomes.trans (congrArg (·, outcome) (List.append_nil _))
  rw [hwhole]
  exact ⟨hreturns, rfl, hcomprises.accounts⟩

/-- **Composed calls compute the monad of failures.**  Whatever tree of unused calls a task executes,
as long as nobody disturbs it, what is observed of its calls is what the plan of the tree computes: a
map applies its function to the value of its first stage, a flat map goes on to the call that its
mapper chooses, leaves and searches are executed in just that order and number, and the first
failure ends it all.  The task makes no more steps than there is to see, and until it returns it
makes another one, or waits at a gate.  When it returns, it does so with the outcome that the plan
computes; then all has been seen, nothing but the ends of bodies after a failure, and each call that
was begun has ended in the state that goes with its own outcome. -/
theorem Undisturbed.computes
    {root : CallId}
    {plan : Plan}
    {body : Computation Value}
    {steps : Nat}
    {told : List Observation}
    (h : session.Reachable)
    (hunused : session.calls.Unused plan root)
    (hbody : plan.Computes names answers body)
    (hundisturbed : Undisturbed names answers root task session steps told after) :
    let whole := within plan body 0
    after.events told <+: whole.1 ∧ steps ≤ whole.1.length ∧
      ((after.call root).state.isFinal = false →
        GoesOn names answers root task session steps told after) ∧
      ((after.call root).state.isFinal = true →
        after.Returns root task (session.task task).stack whole.2 ∧
          after.events told = whole.1 ∧ IsShort whole.1 whole.2 ∧
          ∀ id, .began id ∈ told → ∃ outcome, .concluded id outcome ∈ told ∧
            (after.call id).state = .ofOutcome outcome) := by
  obtain ⟨hseen, hsteps⟩ := hundisturbed.shows h hunused hbody
  refine ⟨hseen, Nat.le_trans hsteps hseen.length_le, hundisturbed.continues h hunused hbody,
    fun hfinal => ?_⟩
  obtain ⟨hreturns, hwhole, haccounts⟩ := hundisturbed.returns h hunused hbody hfinal
  refine ⟨hreturns, (congrArg Prod.fst hwhole).symm, (hbody.failsFast.within plan) 0, ?_⟩
  intro id hbegan
  obtain ⟨outcome, hended⟩ | ⟨frame, hframe, _⟩ := haccounts.began id hbegan
  · exact ⟨outcome, hended, haccounts.state id outcome hended⟩
  · cases hframe

/-- Where nobody watches and a flat mapper builds what it chooses, the task goes on as long as
searches are answered as it is said. -/
theorem Undisturbed.goesOn_of_fresh
    {root : CallId}
    {steps : Nat}
    {told : List Observation}
    {point : Point}
    (hbefore : Undisturbed names answers root task session steps told after)
    (hactive : after.active = some (task, point))
    (hopen : (after.call root).state.isFinal = false)
    (hanswers : ∀ search, (after.backend after.searches search).result =
      answers (Event.searches (after.events told)) search)
    (hwatches : after.watches = [])
    (hfresh : ∀ own mapper rest, (after.task task).stack = .first own mapper :: rest →
      FlatMapper.IsFresh mapper)
    (news : List Observation)
    (hnews : after.step.journal = news.reverse ++ after.journal) :
    Undisturbed names answers root task session (steps + 1) (told ++ news) after.step := by
  refine .goesOn hbefore hopen hactive ⟨?_, fun _ _ _ _ => hwatches, ?_⟩ hnews
  · exact fun _ search _ _ => hanswers search
  · intro value own mapper rest stage _ hstack hresult
    obtain ⟨plan, rfl⟩ := hfresh own mapper rest hstack value stage hresult
    exact trivial

/-- A leaf that waits at a gate, then a call that yields the same value, and then a mapper that
fails. -/
def failingLate : Plan :=
  .mapped (.flatMapped (.recording ⟨.null, none, some "gate", false⟩) FlatMapper.constant)
    Mapper.fail

/-- A task is about to execute it. -/
def comingToFailure : Session :=
  (((start (.scripted [])).define "whole" failingLate).spawn "task" 2 .caller).step

/-- The leaf waits. -/
def waitingLeaf : Session :=
  comingToFailure.step.step.step

/-- The gate was opened, and the task went on to the end. -/
def lateFailure : Session :=
  (waitingLeaf.openGate "gate").step.step.step.step.step.step

theorem reachable_comingToFailure : comingToFailure.Reachable := by
  refine ⟨.scripted [], Relation.ReflTransGen.tail ?_ (Move.step _)⟩
  refine Relation.ReflTransGen.tail ?_ (Move.spawn _ _ _ _ rfl (by decide +kernel))
  exact Relation.ReflTransGen.single (Move.define _ _ _ rfl)

theorem undisturbed_waitingLeaf (names : Names) :
    Undisturbed names (fun _ _ => .error .noReply) 2 0 comingToFailure 3
      [.began 2, .began 1, .began 0] waitingLeaf := by
  have hcomes : Undisturbed names (fun _ _ => .error .noReply) 2 0 comingToFailure 0 []
      comingToFailure := .comes rfl
  have hmapped := hcomes.goesOn_of_fresh rfl rfl (fun _ => rfl) rfl nofun [.began 2] rfl
  have hflatMapped := hmapped.goesOn_of_fresh rfl rfl (fun _ => rfl) rfl nofun [.began 1] rfl
  exact hflatMapped.goesOn_of_fresh rfl rfl (fun _ => rfl) rfl
    (fun | _, _, _, rfl => FlatMapper.isFresh_constant) [.began 0] rfl

theorem not_canceled_of_lt
    (h : ∀ id < session.calls.size, (session.call id).canceled = false)
    (id : CallId) :
    (session.call id).canceled = false := by
  by_cases hlt : id < session.calls.size
  · exact h id hlt
  · rw [call, Calls.get_eq_default (Nat.not_lt.mp hlt)]
    rfl

theorem undisturbed_lateFailure (names : Names) :
    ∃ steps told, Undisturbed names (fun _ _ => .error .noReply) 2 0 comingToFailure steps told
      lateFailure := by
  have hopened := (undisturbed_waitingLeaf names).aside rfl nofun (Move.openGate _ "gate" rfl)
    (fun _ _ _ _ => not_canceled_of_lt (by decide +kernel) _) nofun
  have hwoken := hopened.aside rfl nofun (Move.step _)
    (fun _ _ _ _ => not_canceled_of_lt (by decide +kernel) _) nofun
  have hleaf := hwoken.goesOn_of_fresh rfl rfl (fun _ => rfl) rfl nofun
    [.concluded 0 (.ok .null)] rfl
  have hchosen := hleaf.goesOn_of_fresh rfl rfl (fun _ => rfl) rfl
    (fun | _, _, _, rfl => FlatMapper.isFresh_constant) [.applied 1] rfl
  have hconstant := hchosen.goesOn_of_fresh rfl rfl (fun _ => rfl) rfl nofun
    [.began 3, .concluded 3 (.ok .null)] rfl
  have hflatMapped := hconstant.goesOn_of_fresh rfl rfl (fun _ => rfl) rfl nofun
    [.concluded 1 (.ok .null)] rfl
  exact ⟨_, _, hflatMapped.goesOn_of_fresh rfl rfl (fun _ => rfl) rfl nofun
    [.applied 2, .concluded 2 (.error .mapperFailed)] rfl⟩

theorem computes_failingLate (names : Names) (answers : Answers) :
    ∃ body, failingLate.Computes names answers body ∧
      (within failingLate body 0).2 = .error .mapperFailed := by
  refine ⟨_, .mapped (@Plan.Computes.flatMapped _ _ _ _ _ (fun value => give (.ok value))
    (.recording _) (fun _ => rfl) ?_) (fun _ => rfl), rfl⟩
  rintro value plan ⟨⟩
  exact .constant value

/-- The failure of the mapper is what the task goes on with. -/
theorem computes_lateFailure :
    lateFailure.Returns 2 0 [] (.error .mapperFailed) := by
  obtain ⟨body, hbody, houtcome⟩ := computes_failingLate (fun label => .error (.unknownCall label))
    fun _ _ => .error .noReply
  obtain ⟨steps, told, hundisturbed⟩ := undisturbed_lateFailure fun label =>
    .error (.unknownCall label)
  have hunused : comingToFailure.calls.Unused failingLate 2 := Calls.unused_add #[] failingLate
  have hcomputes := Undisturbed.computes reachable_comingToFailure hunused hbody hundisturbed
  exact houtcome ▸ (hcomputes.2.2.2 rfl).1

end Session
end TraceArchive
