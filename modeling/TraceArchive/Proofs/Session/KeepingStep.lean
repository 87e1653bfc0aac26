import TraceArchive.Proofs.Session.Outcomes
import TraceArchive.Proofs.Session.Phases
import TraceArchive.Proofs.Session.Sending

/-!
# The phase of a trace search keeps step with its state

A trace search has a state, like every call, and a phase of its own.  The state is set around its
body and the phase in it, and yet they change together: a body that ends with a value finds that
its call was not canceled, since nothing happens between the end of its search and its own.

* `Accord`: which states and phases go together.
* `Session.unflagged_of_move`: a task that comes back with a value comes from a call that was not
  canceled.
* `Session.InStep`, `KeepsStep`: the phase agrees with the state, and a move keeps it so.
* `InStep.others`, `Engaged.inStep_advance`: while other bodies go on, and in the trace search's own.
* `Session.keepsStep_of_move`: every move keeps a trace search in step, if nobody acts on what it
  logs.
-/

set_option autoImplicit false

namespace TraceArchive

/-- The states and the phases of a trace search that go together, and how often its body has begun:
one that was refused stays built, and one whose body was broken off has failed, even if it was
canceled. -/
inductive Accord : CallState → SearchPhase → Nat → Prop
  | new : Accord .new .built 0
  | refused : Accord .canceled .built 0
  | executing {phase : SearchPhase} (hphase : phase = .aggregating ∨ phase = .fetching) :
      Accord .executing phase 1
  | done : Accord .done .done 1
  | failed : Accord .failed .failed 1
  | canceled : Accord .canceled .failed 1

/-- A new trace search is built, and has not begun. -/
theorem Accord.of_new
    {phase : SearchPhase}
    {begun : Nat}
    (h : Accord .new phase begun) :
    phase = .built ∧ begun = 0 := by
  cases h
  exact ⟨rfl, rfl⟩

theorem Frame.phase_of_phase?
    {frame : Frame}
    {phase : SearchPhase}
    (h : frame.phase? = some phase) :
    phase = .aggregating ∨ phase = .fetching := by
  cases frame with
  | listing call search => exact Or.inl (Option.some.inj h).symm
  | fetching call search ids => exact Or.inr (Option.some.inj h).symm
  | _ => cases h

namespace Session

/-! ### Where values come from -/

/-- The running task has a value for the body of its topmost frame, and the call that this goes on
after was not canceled. -/
def Unflagged (session : Session) : Prop :=
  ∀ task value frame rest stage,
    session.active = some (task, .after (.ok value)) →
      (session.task task).stack = frame :: rest → frame.awaits session.calls = some stage →
        (session.call stage).canceled = false

theorem unflagged_of_leaf
    {session : Session}
    (h : ∀ task value, session.active = some (task, .after (.ok value)) →
      ∃ frame rest, (session.task task).stack = frame :: rest ∧ frame.IsLeaf) :
    session.Unflagged := by
  intro task value frame rest stage hactive hstack hawaits
  obtain ⟨top, others, hcons, hleaf⟩ := h task value hactive
  cases hcons.symm.trans hstack
  cases (hleaf.awaits session.calls).symm.trans hawaits

theorem Engaged.unflagged_advance
    {session : Session}
    {task : TaskId}
    {own : CallId}
    {progress : Progress}
    (h : session.Engaged task own)
    (hfits : progress.Fits own session.calls) :
    (session.advance task own progress).Unflagged := by
  cases progress with
  | ends outcome =>
      rw [advance_ends]
      intro runner value frame rest stage hactive hstack hawaits
      obtain ⟨rfl, hvalue⟩ : task = runner ∧
          (conclusion (session.call own) outcome).2 = .ok value := by
        simpa [goOn] using hactive
      have hframe : frame ∈ (session.task task).stack := hstack ▸ List.mem_cons_self
      have hspares := Calls.spares_setState session.calls own
        (conclusion (session.call own) outcome).1
      have hbefore := Calls.awaits_eq_of_spares hspares
        ((h.steady.framesHold task).holds frame hframe).1 (h.alone task frame hframe)
      have hserves := h.serves
      have hsame : (session.task task).stack = frame :: rest := hstack
      rw [hsame] at hserves
      cases (hserves.1.symm.trans (hbefore.symm.trans hawaits) :)
      exact (canceled_advance session task own (.ends outcome) own).trans
        (eq_of_conclusion_eq_ok hvalue).2
  | executes next frame =>
      refine unflagged_of_leaf fun runner value hactive => ?_
      cases hactive
  | waits gate frame =>
      obtain ⟨hcall, hplan, hleaf⟩ := hfits
      refine unflagged_of_leaf fun runner value hactive => ?_
      have hstack := congrArg Task.stack (h.pushing hcall hplan).2.2
      rcases advance_waits session task own gate frame with heq | ⟨place, heq⟩
      · rw [heq] at hactive ⊢
        cases hactive
        exact ⟨frame, _, hstack, hleaf⟩
      · rw [heq] at hactive
        cases hactive

/-- A task comes back with a value from a call that was not canceled. -/
theorem unflagged_of_move
    {session after : Session}
    (h : session.Sound)
    (hmove : Move session after) :
    after.Unflagged := by
  rcases move_cases h hmove with hturns | ⟨task, own, hactive, hstate, _, rfl⟩ |
    ⟨task, outcome, frame, rest, hactive, hstack, rfl⟩
  · exact unflagged_of_leaf hturns.value
  · have hpiece := piece_opening h hactive hstate
    exact ((engaged_opening h hactive hstate).of_piece hpiece).unflagged_advance hpiece.fits
  · have hpiece := piece_reopening h hactive hstack
    exact ((engaged_reopening h hactive hstack).of_piece hpiece).unflagged_advance hpiece.fits

theorem unflagged_of_reachable
    {session : Session}
    (h : session.Reachable) :
    session.Unflagged := by
  obtain ⟨backend, hrun⟩ := h
  cases hrun with
  | refl =>
      intro task value frame rest stage hactive
      cases hactive
  | tail hearlier hlast => exact unflagged_of_move (sound_of_reachable ⟨backend, hearlier⟩) hlast

/-! ### The phase keeps step with the state -/

/-- The phase of a trace search goes together with the state of the call, every frame of its body
waits in that phase, and the search that it has issued last is tied to it. -/
structure InStep (session : Session) (id : CallId) : Prop where
  accord : Accord (session.call id).state (session.call id).phase (session.beginnings id)
  frames : ∀ task, ∀ frame ∈ (session.task task).stack, frame.call = id →
    frame.phase? = some (session.call id).phase
  ties : session.calls.TiesNext id

/-- The body of a call is the one to run next: it begins, or the topmost frame of the running task
goes on with it. -/
inductive RunsNext (session : Session) (id : CallId) : Prop
  | begins {task : TaskId}
      (hactive : session.active = some (task, .before id)) :
      RunsNext session id
  | resumes {task : TaskId} {outcome : Outcome} {frame : Frame} {rest : List Frame}
      (hactive : session.active = some (task, .after outcome))
      (hstack : (session.task task).stack = frame :: rest)
      (hcall : frame.call = id) :
      RunsNext session id

/-- What a move does to a trace search that is in step: it is in step again, and it has gone from
phase to phase if its body went on, and stayed in its phase otherwise. -/
structure KeepsStep (session after : Session) (id : CallId) : Prop where
  inStep : after.InStep id
  walks : session.RunsNext id → Walks id session after
  stays : ¬ session.RunsNext id → (after.call id).phase = (session.call id).phase

theorem Extends.beginnings_of_ne
    {own id : CallId}
    {told : List Observation}
    {session after : Session}
    (h : Extends own told session after)
    (hne : id ≠ own) :
    after.beginnings id = session.beginnings id := by
  have hnone : told.countP (Observation.begins id) = 0 := List.countP_eq_zero.mpr
    fun entry hentry => by simp [not_counted_of_subject (h.subject entry hentry) hne]
  rw [(h.counts id).1, hnone, Nat.zero_add]

/-- A trace search is kept in step while the bodies of other calls go on. -/
theorem InStep.others
    {own id : CallId}
    {told : List Observation}
    {session after : Session}
    (h : session.InStep id)
    (hne : id ≠ own)
    (hextends : Extends own told session after)
    (hchanges : session.calls.Changes own after.calls)
    (hframes : ∀ task, ∀ frame ∈ (after.task task).stack, frame.call = id →
      frame ∈ (session.task task).stack)
    (hlines : session.RunsNext id → after.lines = session.lines) :
    KeepsStep session after id := by
  have hphase : (after.call id).phase = (session.call id).phase := (hchanges.others hne).1
  refine ⟨⟨?_, ?_, hchanges.tiesNext hne h.ties⟩,
    fun hruns => walks_of_eq hphase (hlines hruns), fun _ => hphase⟩
  · have haccord := h.accord
    rw [hphase, hextends.beginnings_of_ne hne]
    rcases hextends.state id hne with hsame | ⟨hnew, hcanceled⟩
    · rwa [hsame]
    · rw [hnew] at haccord
      rw [hcanceled, haccord.of_new.1, haccord.of_new.2]
      exact .refused
  · intro task frame hframe hcall
    rw [hphase]
    exact h.frames task frame (hframes task frame hframe hcall) hcall

/-- A call that does not exist is in step. -/
theorem inStep_of_size_le
    {session : Session}
    {id : CallId}
    (h : session.Sound)
    (htallied : session.Tallied id)
    (hid : session.calls.size ≤ id) :
    session.InStep id := by
  have hdefault : session.call id = default := Calls.get_eq_default hid
  refine ⟨?_, ?_, ?_⟩
  · rw [Tallied, hdefault] at htallied
    rw [hdefault]
    generalize session.beginnings id = begun at htallied
    generalize session.endings id = ended at htallied
    cases htallied with
    | new => exact .new
    | ended hfinal => cases hfinal
  · rintro task frame hframe rfl
    have hlt := ((h.steady.framesHold task).holds frame hframe).1
    exact absurd hid (Nat.not_le.mpr hlt)
  · intro stage hstage
    rw [← call, hdefault] at hstage
    cases hstage

/-- A call whose body goes on has begun once, also when it ends now. -/
theorem beginnings_advance
    {session : Session}
    {own : CallId}
    (htallied : session.Tallied own)
    (hexecuting : (session.call own).state = .executing)
    (task : TaskId)
    (progress : Progress) :
    (session.advance task own progress).beginnings own = 1 := by
  have hnone : (session.closingWords own progress).countP (Observation.begins own) = 0 := by
    cases progress <;> rfl
  rw [((extends_advance session task own progress).counts own).1, hnone, Nat.zero_add]
  rw [Tallied, hexecuting] at htallied
  generalize session.beginnings own = begun at htallied
  generalize session.endings own = ended at htallied
  cases htallied with
  | executing => rfl
  | ended hfinal => cases hfinal

/-- The state in which a trace search ends goes together with its last phase. -/
theorem accord_conclusion
    {call : Call}
    {outcome : Outcome}
    {phase : SearchPhase}
    (hsuits : (Progress.ends outcome).Suits phase)
    (hvalue : ∀ value, outcome = .ok value → call.canceled = false) :
    Accord (conclusion call outcome).1 phase 1 := by
  cases outcome with
  | ok value =>
      obtain rfl : phase = .done := hsuits
      rw [conclusion, if_neg (by simp [hvalue value rfl])]
      exact .done
  | error failure =>
      obtain rfl : phase = .failed := hsuits
      cases failure with
      | interrupted => exact .canceled
      | _ =>
          simp only [conclusion]
          split
          · exact .canceled
          · exact .failed

/-- A trace search is in step after a piece of its body that goes on as it suits the phase, and
that ends with a value only if the call was not canceled. -/
theorem Engaged.inStep_advance
    {session : Session}
    {task : TaskId}
    {own : CallId}
    {progress : Progress}
    (h : session.Engaged task own)
    (htallied : session.Tallied own)
    (hsuits : progress.Suits (session.call own).phase)
    (hties : session.calls.TiesNext own)
    (hvalue : ∀ value, progress = .ends (.ok value) → (session.call own).canceled = false) :
    (session.advance task own progress).InStep own := by
  have hne : own ≠ own + 1 := Nat.ne_of_lt own.lt_succ_self
  have hchanges := changes_advance session task own progress (own + 1)
  have hphase : ((session.advance task own progress).call own).phase = (session.call own).phase :=
    (hchanges.others hne).1
  refine ⟨?_, ?_, hchanges.tiesNext hne hties⟩
  · rw [hphase, beginnings_advance htallied h.executing]
    cases progress with
    | ends outcome =>
        have hstate : ((session.advance task own (.ends outcome)).call own).state =
            (conclusion (session.call own) outcome).1 :=
          congrArg Call.state ((Calls.get_modify h.call _ own).trans (if_pos rfl))
        rw [hstate]
        exact accord_conclusion hsuits fun value houtcome => hvalue value (congrArg _ houtcome)
    | executes next frame =>
        have hstate : ((session.advance task own (.executes next frame)).call own).state =
            .executing := h.executing
        rw [hstate]
        exact .executing (Frame.phase_of_phase? hsuits)
    | waits gate frame => exact absurd hsuits id
  · intro other frame hframe hcall
    rw [hphase]
    rcases mem_stack_advance h.task hframe with hold | ⟨next, rfl⟩ | ⟨gate, rfl⟩
    · exact absurd hcall (h.alone other frame hold)
    · exact hsuits
    · exact absurd hsuits id

/-! ### Moves -/

theorem not_runsNext_of_isIdle
    {session : Session}
    (h : session.IsIdle)
    (id : CallId) :
    ¬ session.RunsNext id := by
  rintro (hactive | ⟨hactive, _, _⟩)
  · cases h.symm.trans hactive
  · cases h.symm.trans hactive

theorem runsNext_iff_of_before
    {session : Session}
    {task : TaskId}
    {own id : CallId}
    (hactive : session.active = some (task, .before own)) :
    session.RunsNext id ↔ id = own := by
  constructor
  · rintro (hother | ⟨hother, _, _⟩)
    · cases hactive.symm.trans hother
      rfl
    · cases hactive.symm.trans hother
  · rintro rfl
    exact .begins hactive

theorem runsNext_iff_of_after
    {session : Session}
    {task : TaskId}
    {outcome : Outcome}
    {frame : Frame}
    {rest : List Frame}
    {id : CallId}
    (hactive : session.active = some (task, .after outcome))
    (hstack : (session.task task).stack = frame :: rest) :
    session.RunsNext id ↔ id = frame.call := by
  constructor
  · rintro (hother | ⟨hother, hcons, rfl⟩)
    · cases hactive.symm.trans hother
    · cases hactive.symm.trans hother
      cases hstack.symm.trans hcons
      rfl
  · rintro rfl
    exact .resumes hactive hstack rfl

theorem lines_of_rests
    {session after : Session}
    (h : Rests session after) :
    after.lines = session.lines := by
  obtain ⟨remarks, hjournal, hremarks⟩ := h.journal
  have hnone : remarks.filterMap Observation.line? = [] :=
    List.filterMap_eq_nil_iff.mpr fun entry hentry => by
      have hremark := hremarks entry hentry
      cases entry with
      | logged text => cases hremark
      | _ => rfl
  rw [lines, hjournal, List.filterMap_append, hnone, List.nil_append, lines]

theorem lines_advance
    (session : Session)
    (task : TaskId)
    (own : CallId)
    (progress : Progress) :
    (session.advance task own progress).lines = session.lines := by
  cases progress with
  | ends outcome => exact lines_note_of_none rfl session
  | executes next frame => rfl
  | waits gate frame =>
      obtain ⟨_, _, _, heq⟩ := exists_advance_waits session task own gate frame
      rw [heq]
      rfl

theorem walks_advance
    (session : Session)
    (task : TaskId)
    (own : CallId)
    (progress : Progress) :
    Walks own session (session.advance task own progress) := by
  have hchanges := changes_advance session task own progress (own + 1)
  exact walks_of_eq (hchanges.others (Nat.ne_of_lt own.lt_succ_self)).1
    (lines_advance session task own progress)

section Moves

variable {session : Session} {task : TaskId} {search : TraceSearch}

/-- A trace search that is given a value was not canceled, as the search that it comes from was
not. -/
theorem InStep.not_canceled
    {value : Value}
    {frame : Frame}
    {rest : List Frame}
    (h : session.Reachable)
    (hactive : session.active = some (task, .after (.ok value)))
    (hstack : (session.task task).stack = frame :: rest)
    (hplan : (session.call frame.call).plan = .traceSearch search)
    (hinstep : session.InStep frame.call) :
    (session.call frame.call).canceled = false := by
  have hmem : frame ∈ (session.task task).stack := hstack ▸ List.mem_cons_self
  have hbacked := (recorded_of_reachable h).backed task frame hmem
  have hfits := (sound_of_reachable h).steady.fits hstack
  obtain ⟨stage, hnext, hawaits⟩ : ∃ stage, (session.call frame.call).next = some stage ∧
      frame.awaits session.calls = some stage := by
    rw [hplan] at hfits
    rcases hfits.of_traceSearch with ⟨own, rfl⟩ | ⟨own, ids, rfl⟩
    · obtain ⟨stage, _, hnext⟩ := hbacked
      exact ⟨stage, hnext, hnext⟩
    · obtain ⟨_, stage, _, hnext, _⟩ := hbacked
      exact ⟨stage, hnext, hnext⟩
  have hstage := unflagged_of_reachable h task value frame rest stage hactive hstack hawaits
  cases hflag : (session.call frame.call).canceled with
  | false => rfl
  | true => exact absurd (hstage.symm.trans ((hinstep.ties stage hnext).canceled hflag)) (by decide)

/-- A trace search is kept in step when its body begins. -/
theorem InStep.before
    {own : CallId}
    (hinstep : session.InStep own)
    (h : session.Reachable)
    (hunwatched : session.watches = [])
    (hfirst : session.calls.FirstOfComposed)
    (hactive : session.active = some (task, .before own))
    (hstate : (session.call own).state = .new)
    (hplan : (session.call own).plan = .traceSearch search) :
    KeepsStep session (((session.opening own).begin own).2.advance task own
      ((session.opening own).begin own).1) own := by
  have hsound := sound_of_reachable h
  have hengaged := engaged_opening hsound hactive hstate
  have hpiece := piece_opening hsound hactive hstate
  have hown := (hsound.standing task own hactive).1
  have hopened : (session.opening own).call own = { session.call own with state := .executing } :=
    (Calls.get_modify hown _ own).trans (if_pos rfl)
  have hbuilt : (session.call own).phase = .built := by
    have haccord := hinstep.accord
    rw [hstate] at haccord
    exact haccord.of_new.1
  have hchanges : session.calls.Changes (own + 1) (session.opening own).calls :=
    Calls.Changes.refl.setState own .executing
  have hties := hchanges.tiesNext (Nat.ne_of_lt own.lt_succ_self) hinstep.ties
  have hplan' : ((session.opening own).call own).plan = .traceSearch search := by
    rw [hopened]
    exact hplan
  have hpaces : Paces own (session.opening own) ((session.opening own).begin own) := by
    refine paces_begin hunwatched hengaged.call hplan' (hchanges.firstOfComposed hfirst) ?_
    rw [hopened]
    exact hbuilt
  obtain ⟨told, htells, _⟩ := tells_begin hengaged.call
  have hages := (ages_opening hown hstate own).trans (hpiece.ages htells own)
  constructor
  · refine (hengaged.of_piece hpiece).inStep_advance (hages.tallied (tallied_of_reachable h own))
      hpaces.suits (hpaces.ties hties) fun value hends => ?_
    rcases begin_of_plan_traceSearch hengaged.call hplan' with hgivesUp | hissues
    · obtain ⟨failure, hfailed⟩ := hgivesUp.failed
      cases hfailed.symm.trans hends
    · cases hissues.progress.symm.trans hends
  · have hlines : (session.opening own).lines = session.lines := lines_note_of_none rfl _
    have hphase : ((session.opening own).call own).phase = (session.call own).phase := by
      rw [hopened]
    exact fun _ => ((walks_of_eq hphase hlines).trans hpaces.walks).trans
      (walks_advance _ task own _)
  · exact fun hstill => absurd (.begins hactive) hstill

/-- A trace search is kept in step when its body goes on. -/
theorem InStep.after
    {outcome : Outcome}
    {frame : Frame}
    {rest : List Frame}
    (hinstep : session.InStep frame.call)
    (h : session.Reachable)
    (hunwatched : session.watches = [])
    (hfirst : session.calls.FirstOfComposed)
    (hactive : session.active = some (task, .after outcome))
    (hstack : (session.task task).stack = frame :: rest)
    (hplan : (session.call frame.call).plan = .traceSearch search) :
    KeepsStep session (((session.reopening task rest).resume frame outcome).2.advance task frame.call
      ((session.reopening task rest).resume frame outcome).1) frame.call := by
  have hsound := sound_of_reachable h
  have hengaged := engaged_reopening hsound hactive hstack
  have hpiece := piece_reopening hsound hactive hstack
  have hfits := hsound.steady.fits hstack
  have hmem : frame ∈ (session.task task).stack := hstack ▸ List.mem_cons_self
  have hphase := hinstep.frames task frame hmem rfl
  have hpaces := paces_resume (show (session.reopening task rest).watches = [] from hunwatched)
    hengaged.call hplan hfits hfirst hphase outcome
  obtain ⟨told, htells, _⟩ := tells_resume hengaged.call outcome
  have hreopening : Ages session (session.reopening task rest) frame.call :=
    (extends_reopening session task rest frame.call).ages_of_not_told (Or.inl rfl) (by simp)
  have hages := hreopening.trans (hpiece.ages htells frame.call)
  have hreopened : Walks frame.call session (session.reopening task rest) := walks_of_eq rfl rfl
  refine ⟨?_, fun _ => (hreopened.trans hpaces.walks).trans (walks_advance _ task frame.call _),
    fun hstill => absurd (.resumes hactive hstack rfl) hstill⟩
  refine (hengaged.of_piece hpiece).inStep_advance
    (hages.tallied (tallied_of_reachable h frame.call)) hpaces.suits (hpaces.ties hinstep.ties)
    fun value hends => ?_
  have hunwatched' : (session.reopening task rest).IsUnwatched frame.call := fun _ _ => hunwatched
  have hpure : ((session.reopening task rest).call frame.call).plan.IsPure := hplan ▸ trivial
  have halters := alters_resume hengaged.formed hfits hpure hunwatched' outcome
  refine (halters.canceled frame.call hengaged.call).trans ?_
  cases outcome with
  | error failure => cases (resume_error _ frame failure).1.symm.trans hends
  | ok given =>
      have hflag := hinstep.not_canceled h hactive hstack hplan
      exact hflag

/-- The frames of a call stay while the bodies of others go on. -/
theorem mem_stack_of_advance
    {own id : CallId}
    {other : TaskId}
    {progress : Progress}
    {frame : Frame}
    (htask : task < session.tasks.size)
    (hfits : progress.Fits own session.calls)
    (hne : id ≠ own)
    (hframe : frame ∈ ((session.advance task own progress).task other).stack)
    (hcall : frame.call = id) :
    frame ∈ (session.task other).stack := by
  rcases mem_stack_advance htask hframe with hold | ⟨next, rfl⟩ | ⟨gate, rfl⟩
  · exact hold
  · exact absurd (hcall.symm.trans hfits.1) hne
  · exact absurd (hcall.symm.trans hfits.1) hne

theorem changes_before
    {own : CallId}
    (h : session.Sound)
    (hactive : session.active = some (task, .before own))
    (hstate : (session.call own).state = .new) :
    session.calls.Changes own (((session.opening own).begin own).2.advance task own
      ((session.opening own).begin own).1).calls := by
  have hopening : session.calls.Changes own (session.opening own).calls :=
    Calls.Changes.refl.setState own .executing
  exact (hopening.trans (changes_begin (engaged_opening h hactive hstate).call)).trans
    (changes_advance _ task own _ own)

theorem changes_after
    {outcome : Outcome}
    {frame : Frame}
    {rest : List Frame}
    (h : session.Sound)
    (hactive : session.active = some (task, .after outcome))
    (hstack : (session.task task).stack = frame :: rest) :
    session.calls.Changes frame.call (((session.reopening task rest).resume frame outcome).2.advance
      task frame.call ((session.reopening task rest).resume frame outcome).1).calls := by
  have hengaged := engaged_reopening h hactive hstack
  have hresume := changes_resume hengaged.formed hengaged.call (h.steady.fits hstack) outcome
  exact Calls.Changes.trans hresume (changes_advance _ task frame.call _ frame.call)

/-- A trace search is kept in step when the body of another call begins. -/
theorem InStep.others_before
    {own id : CallId}
    (hinstep : session.InStep id)
    (h : session.Sound)
    (hactive : session.active = some (task, .before own))
    (hstate : (session.call own).state = .new)
    (hne : id ≠ own) :
    KeepsStep session (((session.opening own).begin own).2.advance task own
      ((session.opening own).begin own).1) id := by
  have hengaged := engaged_opening h hactive hstate
  have hpiece := piece_opening h hactive hstate
  obtain ⟨told, htells, _⟩ := tells_begin hengaged.call
  have hextends := ((extends_opening session own).trans (hpiece.extends htells)).trans
    (extends_advance _ task own ((session.opening own).begin own).1)
  refine hinstep.others hne hextends (changes_before h hactive hstate) ?_
    fun hruns => absurd (runsNext_iff_of_before hactive |>.mp hruns) hne
  intro other frame hframe hcall
  have hmem := mem_stack_of_advance (hengaged.of_piece hpiece).task hpiece.fits hne hframe hcall
  rw [task_eq_of_tasks_eq hpiece.keeps.tasks] at hmem
  exact hmem

/-- A trace search is kept in step when the body of another call goes on. -/
theorem InStep.others_after
    {id : CallId}
    {outcome : Outcome}
    {frame : Frame}
    {rest : List Frame}
    (hinstep : session.InStep id)
    (h : session.Sound)
    (hactive : session.active = some (task, .after outcome))
    (hstack : (session.task task).stack = frame :: rest)
    (hne : id ≠ frame.call) :
    KeepsStep session (((session.reopening task rest).resume frame outcome).2.advance task frame.call
      ((session.reopening task rest).resume frame outcome).1) id := by
  have hengaged := engaged_reopening h hactive hstack
  have hpiece := piece_reopening h hactive hstack
  obtain ⟨told, htells, _⟩ := tells_resume hengaged.call outcome
  have hextends := ((extends_reopening session task rest frame.call).trans
    (hpiece.extends htells)).trans
      (extends_advance _ task frame.call ((session.reopening task rest).resume frame outcome).1)
  refine hinstep.others hne hextends (changes_after h hactive hstack) ?_
    fun hruns => absurd (runsNext_iff_of_after hactive hstack |>.mp hruns) hne
  intro other below hbelow hcall
  have hmem := mem_stack_of_advance (hengaged.of_piece hpiece).task hpiece.fits hne hbelow hcall
  rw [task_eq_of_tasks_eq hpiece.keeps.tasks, task_reopening (h.running task _ hactive).1] at hmem
  split at hmem
  · rename_i hsame
    subst hsame
    exact hstack ▸ List.mem_cons_of_mem frame hmem
  · exact hmem

end Moves

section EveryMove

variable {session after : Session} {id : CallId} {search : TraceSearch}

theorem changes_of_move
    (h : session.Sound)
    (hmove : Move session after) :
    ∃ own, session.calls.Changes own after.calls := by
  rcases move_cases h hmove with hturns | ⟨task, own, hactive, hstate, _, rfl⟩ |
    ⟨task, outcome, frame, rest, hactive, hstack, rfl⟩
  · exact ⟨0, hturns.rests.changes 0⟩
  · exact ⟨own, changes_before h hactive hstate⟩
  · exact ⟨frame.call, changes_after h hactive hstack⟩

/-- In every session, only composed calls have a first stage. -/
theorem firstOfComposed_of_reachable
    (h : session.Reachable) :
    session.calls.FirstOfComposed := by
  have hboth : session.Reachable ∧ session.calls.FirstOfComposed := by
    refine h.induct
      (motive := fun session => session.Reachable ∧ session.calls.FirstOfComposed) ?_ ?_
    · exact fun backend => ⟨⟨backend, .refl⟩, Calls.firstOfComposed_empty⟩
    · rintro session after ⟨hreachable, hfirst⟩ hmove
      obtain ⟨own, hchanges⟩ := changes_of_move (sound_of_reachable hreachable) hmove
      exact ⟨hreachable.of_move hmove, hchanges.firstOfComposed hfirst⟩
  exact hboth.2

/-- Nobody acts on what a trace search logs: nobody watches when its body goes on. -/
def IsUnheard (session : Session) (id : CallId) : Prop :=
  session.RunsNext id → session.watches = []

/-- Every move keeps a trace search in step, if nobody acts on what it logs. -/
theorem keepsStep_of_move
    (h : session.Reachable)
    (hunheard : session.IsUnheard id)
    (hmove : Move session after)
    (hplan : id < session.calls.size → (session.call id).plan = .traceSearch search)
    (hinstep : session.InStep id) :
    KeepsStep session after id := by
  have hsound := sound_of_reachable h
  have hfirst := firstOfComposed_of_reachable h
  rcases move_cases hsound hmove with hturns | ⟨task, own, hactive, hstate, _, rfl⟩ |
    ⟨task, outcome, frame, rest, hactive, hstack, rfl⟩
  · refine hinstep.others (Nat.ne_of_lt id.lt_succ_self) (hturns.extends (id + 1))
      (hturns.rests.changes (id + 1)) (fun task frame hframe _ => ?_)
      fun _ => lines_of_rests hturns.rests
    rcases hturns.framesKept task with hsame | hnone
    · exact hsame ▸ hframe
    · rw [hnone] at hframe
      exact absurd hframe List.not_mem_nil
  · by_cases hsame : id = own
    · subst hsame
      have hown := (hsound.standing task id hactive).1
      have hunwatched := hunheard (.begins hactive)
      exact hinstep.before h hunwatched hfirst hactive hstate (hplan hown)
    · exact hinstep.others_before hsound hactive hstate hsame
  · by_cases hsame : id = frame.call
    · subst hsame
      have hown := (engaged_reopening hsound hactive hstack).call
      have hunwatched := hunheard (.resumes hactive hstack rfl)
      exact hinstep.after h hunwatched hfirst hactive hstack (hplan hown)
    · exact hinstep.others_after hsound hactive hstack hsame

end EveryMove

end Session
end TraceArchive
