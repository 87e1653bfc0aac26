import TraceArchive.Proofs.Session.KeepingStep

/-!
# The two states of a trace search agree

Whoever looks at a trace search from outside of its own body finds that its phase and the state of
the call say the same, and how far its searches have come.  Calls may be canceled between the turns
of tasks, by mappers, and by those who listen to what other trace searches log.  Only whoever
listens to the lines of this one and cancels calls from there would do so in the midst of its body,
where no other task can.

* `Accord.built_iff` and the others: what a phase says about the state, and a state about the phase.
* `Session.UnheardMove`, `UnheardRun`: moves in which nobody acts on what a trace search logs.
* `UnheardRun.inStep`, `phase_eq_of_over`: in them it stays in step, and in its last phase.
* `Session.IsSeen`, `IsListing`, `IsFetching`: when others see a trace search, and where it waits.
* `Coherent`, `InStep.coherent`: what its phase says about the call.
* `phases_cohere`: the two states agree, and phases follow each other in order.
-/

set_option autoImplicit false

namespace TraceArchive

section Accord

variable {state : CallState} {phase : SearchPhase} {begun : Nat}

theorem Accord.built_iff (h : Accord state phase begun) :
    phase = .built ↔ state = .new ∨ state = .canceled ∧ begun = 0 := by
  cases h with
  | executing hphase => rcases hphase with rfl | rfl <;> simp
  | _ => simp

theorem Accord.executing_iff (h : Accord state phase begun) :
    state = .executing ↔ phase = .aggregating ∨ phase = .fetching := by
  cases h with
  | executing hphase => exact ⟨fun _ => hphase, fun _ => rfl⟩
  | _ => simp

theorem Accord.ne_grouping (h : Accord state phase begun) : phase ≠ .grouping := by
  cases h with
  | executing hphase => rcases hphase with rfl | rfl <;> simp
  | _ => simp

theorem Accord.done_iff (h : Accord state phase begun) : phase = .done ↔ state = .done := by
  cases h with
  | executing hphase => rcases hphase with rfl | rfl <;> simp
  | _ => simp

theorem Accord.failed_iff (h : Accord state phase begun) :
    phase = .failed ↔ begun = 1 ∧ (state = .failed ∨ state = .canceled) := by
  cases h with
  | executing hphase => rcases hphase with rfl | rfl <;> simp
  | _ => simp

end Accord

/-- The lower part of a stack is one. -/
theorem Calls.IsStack.of_append
    {calls : Calls}
    {above below : List Frame}
    (h : calls.IsStack (above ++ below)) :
    calls.IsStack below := by
  induction above with
  | nil => exact h
  | cons frame rest ih => exact ih (Calls.isStack_cons_iff.mp h).2.2.2

namespace Session

/-! ### Runs in which nobody acts on what is logged -/

/-- A move in which nobody acts on what a trace search logs. -/
def UnheardMove (id : CallId) (session after : Session) : Prop :=
  Move session after ∧ session.IsUnheard id

/-- Any number of moves in which nobody acts on what a trace search logs. -/
abbrev UnheardRun (id : CallId) : Session → Session → Prop :=
  Relation.ReflTransGen (UnheardMove id)

section Runs

variable {session after : Session} {id : CallId} {search : TraceSearch}

theorem UnheardRun.run (h : UnheardRun id session after) : Run session after :=
  Relation.ReflTransGen.mono (fun _ _ hmove => hmove.1) session after h

theorem UnheardMove.keepsStep
    (h : UnheardMove id session after)
    (hreachable : session.Reachable)
    (hplan : (after.call id).plan = .traceSearch search)
    (hinstep : (session.call id).plan = .traceSearch search → session.InStep id) :
    KeepsStep session after id := by
  have hsound := sound_of_reachable hreachable
  have hbefore : id < session.calls.size → (session.call id).plan = .traceSearch search :=
    fun hid => ((flags_of_move hsound h.1).plan id hid).symm.trans hplan
  refine keepsStep_of_move hreachable h.2 h.1 hbefore ?_
  by_cases hid : id < session.calls.size
  · exact hinstep (hbefore hid)
  · exact inStep_of_size_le hsound (tallied_of_reachable hreachable id) (Nat.not_lt.mp hid)

/-- A trace search stays in step while nobody acts on what it logs. -/
theorem UnheardRun.inStep
    (h : UnheardRun id session after)
    (hreachable : session.Reachable)
    (hplan : (after.call id).plan = .traceSearch search)
    (hinstep : (session.call id).plan = .traceSearch search → session.InStep id) :
    after.InStep id := by
  induction h with
  | refl => exact hinstep hplan
  | tail hearlier hlast ih =>
      have hmiddle := hreachable.of_run (UnheardRun.run hearlier)
      exact (hlast.keepsStep hmiddle hplan ih).inStep

theorem inStep_of_unheardRun
    {backend : Backend}
    (h : UnheardRun id (start backend) session)
    (hplan : (session.call id).plan = .traceSearch search) :
    session.InStep id := by
  refine h.inStep ⟨backend, .refl⟩ hplan fun hstart => ?_
  have hid : id < (start backend).calls.size :=
    lt_size_of_plan_ne (hstart ▸ traceSearch_ne_default search)
  exact absurd hid (Nat.not_lt_zero id)

/-- The phase of a trace search stays once it is done or has failed. -/
theorem UnheardRun.phase_eq_of_over
    (h : UnheardRun id session after)
    (hreachable : session.Reachable)
    (hplan : (session.call id).plan = .traceSearch search)
    (hinstep : session.InStep id)
    (hover : (session.call id).phase = .done ∨ (session.call id).phase = .failed) :
    (after.call id).phase = (session.call id).phase := by
  induction h with
  | refl => rfl
  | @tail middle after hearlier hlast ih =>
      have hrun := UnheardRun.run hearlier
      have hmiddle := hreachable.of_run hrun
      have hplan' := plan_eq_of_run hreachable (hrun.tail hlast.1) hplan
        (traceSearch_ne_default search)
      have hkeeps := hlast.keepsStep hmiddle hplan' fun hbefore =>
        UnheardRun.inStep hearlier hreachable hbefore fun _ => hinstep
      by_cases hnext : middle.RunsNext id
      · obtain ⟨lines, hwalk, _⟩ := hkeeps.walks hnext
        rw [ih] at hwalk
        exact (hwalk.eq_of_over hover).1
      · exact (hkeeps.stays hnext).trans ih

end Runs

/-! ### What others see of a trace search -/

/-- Others see a call as it is: the running task, if there is one, is not in its body. -/
def IsSeen (session : Session) (id : CallId) : Prop :=
  ∀ task point, session.active = some (task, point) → ¬ Calls.OnStack id (session.task task).stack

theorem isSeen_of_isIdle
    {session : Session}
    (h : session.IsIdle)
    (id : CallId) :
    session.IsSeen id := by
  intro task point hactive
  cases h.symm.trans hactive

/-- A call is suspended in a search: a task that is not running waits for the reply to it, and then
goes on with the body of the call. -/
def IsSuspendedIn (session : Session) (id stage : CallId) (asked : Search) : Prop :=
  ∃ task reply frame rest, (session.task task).state ≠ .running ∧
    (session.task task).stack = .reply stage asked reply :: frame :: rest ∧ frame.call = id

/-- A trace search is suspended in its first search, the listing of trace IDs. -/
def IsListing (session : Session) (id : CallId) (search : TraceSearch) : Prop :=
  ∃ first, session.stages id = [first] ∧ session.IsSuspendedIn id first search.listing

/-- A trace search is suspended in its second search, the fetch of some traces. -/
def IsFetching (session : Session) (id : CallId) (search : TraceSearch) : Prop :=
  ∃ first second ids, session.stages id = [first, second] ∧
    session.IsSuspendedIn id second (search.fetch ids)

/-- What the phase of a trace search says about the call: it is built until its body begins, which a
call that was canceled before never does, it lists or fetches while it is suspended in its first or
second search, it is done when the call is done, and it has failed when the body has begun and the
call has failed or was canceled.  Nobody sees it group the spans. -/
structure Coherent (session : Session) (id : CallId) (search : TraceSearch) : Prop where
  built : (session.call id).phase = .built ↔ (session.call id).state = .new ∨
    (session.call id).state = .canceled ∧ session.beginnings id = 0
  aggregating : (session.call id).phase = .aggregating ↔
    (session.call id).state = .executing ∧ session.IsListing id search
  fetching : (session.call id).phase = .fetching ↔
    (session.call id).state = .executing ∧ session.IsFetching id search
  grouping : (session.call id).phase ≠ .grouping
  done : (session.call id).phase = .done ↔ (session.call id).state = .done
  failed : (session.call id).phase = .failed ↔ session.beginnings id = 1 ∧
    ((session.call id).state = .failed ∨ (session.call id).state = .canceled)

section Suspended

variable {session : Session} {id : CallId} {search : TraceSearch}

/-- While a task waits, a frame that waits for a search has just the frame of that above it. -/
theorem Steady.exists_reply_above
    {task : TaskId}
    {above rest : List Frame}
    {frame : Frame}
    {stage : CallId}
    {asked : Search}
    (h : session.Steady)
    (hstate : (session.task task).state ≠ .running)
    (hstack : (session.task task).stack = above ++ frame :: rest)
    (hawaits : frame.awaits session.calls = some stage)
    (hasks : (session.call stage).plan = .search asked) :
    ∃ reply, above = [.reply stage asked reply] := by
  have hwhole := h.framesHold task
  obtain ⟨top, others, hcons, hleaf⟩ := h.exists_leaf hstate (by simp [hstack])
  rw [hstack] at hwhole hcons
  rcases List.eq_nil_or_concat' above with rfl | ⟨front, last, rfl⟩
  · cases hcons
    cases (hleaf.awaits session.calls).symm.trans hawaits
  · rw [List.append_assoc] at hwhole
    obtain ⟨hholds, _, hserves, _⟩ := Calls.isStack_cons_iff.mp hwhole.of_append
    obtain rfl : stage = last.call := Option.some.inj (hawaits.symm.trans hserves.1)
    have hfits := hholds.2.2
    rw [← call, hasks] at hfits
    obtain ⟨own, reply, rfl⟩ := hfits.of_search
    -- the reply waits for no other call, so nothing stands above it
    rcases List.eq_nil_or_concat' front with rfl | ⟨higher, above, rfl⟩
    · exact ⟨reply, rfl⟩
    · rw [List.append_assoc] at hwhole
      obtain ⟨_, _, hserved, _⟩ := Calls.isStack_cons_iff.mp hwhole.of_append
      cases hserved.1

/-- A trace search that others see executing lists or fetches, in the phase for that. -/
theorem IsSeen.suspended
    (h : session.IsSeen id)
    (hreachable : session.Reachable)
    (hplan : (session.call id).plan = .traceSearch search)
    (hinstep : session.InStep id)
    (hexecuting : (session.call id).state = .executing) :
    (session.call id).phase = .aggregating ∧ session.IsListing id search ∨
      (session.call id).phase = .fetching ∧ session.IsFetching id search := by
  have hsteady := (sound_of_reachable hreachable).steady
  have hrecorded := recorded_of_reachable hreachable
  obtain ⟨task, stack, hhosts⟩ := exists_hosts hreachable hexecuting
  obtain ⟨above, frame, rfl, hstack⟩ := hhosts.hosted
  have hmem : frame ∈ (session.task task).stack := by simp [hstack]
  have hstate : (session.task task).state ≠ .running := by
    intro hrunning
    obtain ⟨point, hactive⟩ := solitary_of_reachable hreachable task hrunning
    exact h task point hactive ⟨frame, hmem, rfl⟩
  have hphase := hinstep.frames task frame hmem rfl
  have hbacked := hrecorded.backed task frame hmem
  have hfits := ((hsteady.framesHold task).holds frame hmem).2.2
  rw [← call, hplan] at hfits
  rcases hfits.of_traceSearch with ⟨own, rfl⟩ | ⟨own, ids, rfl⟩
  · obtain ⟨stage, hstages, hnext⟩ := hbacked
    have hcourse := hrecorded.course own search hplan
    rw [hstages] at hcourse
    cases hcourse with
    | listing hfirst =>
        obtain ⟨reply, rfl⟩ := hsteady.exists_reply_above hstate hstack hnext hfirst
        exact Or.inl ⟨(Option.some.inj hphase).symm, stage, hstages, task, reply, _, stack, hstate,
          hstack, rfl⟩
  · obtain ⟨first, stage, hstages, hnext, hsecond⟩ := hbacked
    obtain ⟨reply, rfl⟩ := hsteady.exists_reply_above hstate hstack hnext hsecond
    exact Or.inr ⟨(Option.some.inj hphase).symm, first, stage, ids, hstages, task, reply, _, stack,
      hstate, hstack, rfl⟩

/-- Whoever sees a trace search that is in step finds that its phase and its state agree. -/
theorem InStep.coherent
    (h : session.InStep id)
    (hreachable : session.Reachable)
    (hplan : (session.call id).plan = .traceSearch search)
    (hseen : session.IsSeen id) :
    session.Coherent id search := by
  have hsuspended := hseen.suspended hreachable hplan h
  have hexecuting := h.accord.executing_iff
  refine ⟨h.accord.built_iff, ⟨fun hphase => ?_, ?_⟩, ⟨fun hphase => ?_, ?_⟩, h.accord.ne_grouping,
    h.accord.done_iff, h.accord.failed_iff⟩
  · have hstate := hexecuting.mpr (Or.inl hphase)
    rcases hsuspended hstate with ⟨_, hlisting⟩ | ⟨hother, _⟩
    · exact ⟨hstate, hlisting⟩
    · cases hphase.symm.trans hother
  · rintro ⟨hstate, first, hstages, _⟩
    rcases hsuspended hstate with ⟨hphase, _⟩ | ⟨_, _, _, _, hother, _⟩
    · exact hphase
    · cases hstages.symm.trans hother
  · have hstate := hexecuting.mpr (Or.inr hphase)
    rcases hsuspended hstate with ⟨hother, _⟩ | ⟨_, hfetching⟩
    · cases hphase.symm.trans hother
    · exact ⟨hstate, hfetching⟩
  · rintro ⟨hstate, first, second, ids, hstages, _⟩
    rcases hsuspended hstate with ⟨_, _, hother, _⟩ | ⟨hphase, _⟩
    · cases hstages.symm.trans hother
    · exact hphase

end Suspended

/-- However calls are executed and canceled and tasks interrupted, the phase of a trace search and
its state agree for all others, as long as nobody cancels calls from the lines that it logs.  When
its body goes on, phases follow each other in their order, and they are not left in any other way;
it stays done, and it stays failed. -/
theorem phases_cohere
    {backend : Backend}
    {session : Session}
    {id : CallId}
    {search : TraceSearch}
    (hrun : UnheardRun id (start backend) session)
    (hplan : (session.call id).plan = .traceSearch search) :
    (session.IsSeen id → session.Coherent id search) ∧
      (∀ after, UnheardMove id session after →
        (session.RunsNext id → Walks id session after) ∧
          (¬ session.RunsNext id → (after.call id).phase = (session.call id).phase)) ∧
      ∀ after, UnheardRun id session after →
        (session.call id).phase = .done ∨ (session.call id).phase = .failed →
          (after.call id).phase = (session.call id).phase := by
  have hreachable : session.Reachable := ⟨backend, UnheardRun.run hrun⟩
  have hinstep := inStep_of_unheardRun hrun hplan
  refine ⟨hinstep.coherent hreachable hplan, fun after hmove => ?_, fun after hlater =>
    UnheardRun.phase_eq_of_over hlater hreachable hplan hinstep⟩
  have hafter := plan_eq_of_run hreachable (.single hmove.1) hplan (traceSearch_ne_default search)
  have hkeeps := hmove.keepsStep hreachable hafter fun _ => hinstep
  exact ⟨hkeeps.walks, hkeeps.stays⟩

/-- The steps of the tasks are a run in which nobody acts on what is logged, if nobody ever
watches. -/
theorem unheardRun_settle
    (id : CallId)
    (budget : Nat)
    (session : Session)
    (h : ∀ count < budget, (session.settle count).watches = []) :
    UnheardRun id session (session.settle budget) := by
  induction budget generalizing session with
  | zero => exact .refl
  | succ budget ih =>
      rw [settle]
      split
      · exact .refl
      · rename_i hmore
        have hfirst : UnheardMove id session session.step :=
          ⟨.step session, fun _ => h 0 budget.succ_pos⟩
        refine .head hfirst (ih session.step fun count hcount => ?_)
        have hnext := h (count + 1) (Nat.succ_lt_succ hcount)
        rwa [settle, if_neg hmore] at hnext

/-- A backend that lists two traces, and gives their spans as soon as a gate opens. -/
def slowlyFetching : Backend :=
  .scripted
    [⟨none, .ok (.single "aggregations" (.single "traceId" (.single "buckets"
      (.arr [bucket "2", bucket "1"]))))⟩,
    ⟨some "fetch", .ok (.single "hits" (.single "hits" (.arr [hit "1" "a", hit "2" "b"])))⟩]

/-- A session in which a trace search waits for the spans that it fetches. -/
def fetching : Session :=
  (((start slowlyFetching).define "traces" (.traceSearch lasting)).spawn "" 0 .caller).settle 12

theorem unheardRun_fetching : UnheardRun 0 (start slowlyFetching) fetching := by
  have hdefine : UnheardRun 0 (start slowlyFetching)
      ((start slowlyFetching).define "traces" (.traceSearch lasting)) :=
    .single ⟨.define _ _ _ rfl, fun _ => rfl⟩
  have hspawn := hdefine.tail ⟨.spawn _ "" 0 .caller rfl (by decide), fun _ => rfl⟩
  refine hspawn.trans (unheardRun_settle 0 12 _ fun count hcount => ?_)
  interval_cases count <;> rfl

/-- A trace search waits for spans.  Canceled meanwhile it goes on waiting, and it fails for good
when they come. -/
theorem phases_cohere_fetching :
    let failed := ((fetching.cancel 0).2.openGate "fetch").settle 6
    fetching.IsFetching 0 lasting ∧ ((fetching.cancel 0).2.call 0).phase = .fetching ∧
      failed.Coherent 0 lasting ∧ (failed.call 0).state = .canceled ∧
        ∀ after, UnheardRun 0 failed after → (after.call 0).phase = .failed := by
  intro failed
  have hidle : fetching.IsIdle := rfl
  have hidle' : failed.IsIdle := rfl
  have hcancel : UnheardMove 0 fetching (fetching.cancel 0).2 :=
    ⟨.cancel fetching 0 hidle (by decide), fun _ => rfl⟩
  have hrun : UnheardRun 0 (start slowlyFetching) failed := by
    have hopen := (unheardRun_fetching.tail hcancel).tail
      ⟨.openGate _ "fetch" rfl, fun _ => rfl⟩
    refine hopen.trans (unheardRun_settle 0 6 _ fun count hcount => ?_)
    interval_cases count <;> rfl
  have hphase : (failed.call 0).phase = .failed := rfl
  obtain ⟨hseen, hmoves, _⟩ := phases_cohere unheardRun_fetching rfl
  obtain ⟨hseen', _, hstays⟩ := phases_cohere hrun rfl
  refine ⟨?_, ?_, hseen' (isSeen_of_isIdle hidle' 0), rfl, fun after hafter => ?_⟩
  · exact ((hseen (isSeen_of_isIdle hidle 0)).fetching.mp rfl).2
  · exact (hmoves _ hcancel).2 (not_runsNext_of_isIdle hidle 0)
  · exact (hstays after hafter (Or.inr hphase)).trans hphase

end Session
end TraceArchive
