import TraceArchive.Proofs.Lookups
import TraceArchive.Proofs.Session.Sending

/-!
# The two phases of a trace search

A trace search issues its listing and, once that has come to trace IDs, the fetch of their spans.

* `passes_congr`, `passes_of_unwatched`: what it depends on that a trace search is let pass to its
  next phase.
* `Resumes`: the task of a trace search is about to go on with the reply to a search of it.
* `Proceeds`: what it takes to go on to the second phase then.
* `sent_of_proceeds`, `exists_issued_iff_proceeds`: the fetch is sent just when that holds.
* `followsProtocol`: the protocol of every trace search in every session.
-/

set_option autoImplicit false

namespace TraceArchive
namespace Session

/-! ### Going to another phase -/

/-- Those who watch for a phase go by the calls only. -/
theorem alert_congr
    {session after : Session}
    (phase : SearchPhase)
    (watches : List (SearchPhase × CallId))
    (h : after.calls = session.calls) :
    (alert phase watches after).1 = (alert phase watches session).1 ∧
      (alert phase watches after).2.calls = (alert phase watches session).2.calls := by
  induction watches generalizing session after with
  | nil => exact ⟨rfl, h⟩
  | cons watch rest ih =>
      rw [alert, alert]
      by_cases hphase : watch.1 = phase
      · have hresult : (after.cancel watch.2).1 = (session.cancel watch.2).1 := by
          rw [cancel, cancel, h]
        have hcalls : (after.cancel watch.2).2.calls = (session.cancel watch.2).2.calls := by
          rw [cancel, cancel, h]
        rw [if_pos hphase, if_pos hphase]
        rcases hafter : after.cancel watch.2 with ⟨result, later⟩
        rcases hsession : session.cancel watch.2 with ⟨result', middle⟩
        rw [hafter, hsession] at hresult hcalls
        cases hresult
        cases result with
        | error failure => exact ⟨rfl, hcalls⟩
        | ok => exact ih hcalls
      · rw [if_neg hphase, if_neg hphase]
        exact ih h

theorem enterPhase_congr
    {session after : Session}
    (hcalls : after.calls = session.calls)
    (hwatches : after.watches = session.watches)
    (own : CallId)
    (phase : SearchPhase) :
    (after.enterPhase own phase).1 = (session.enterPhase own phase).1 ∧
      (after.enterPhase own phase).2.calls = (session.enterPhase own phase).2.calls := by
  unfold enterPhase
  dsimp only
  generalize hnote : after.note _ = noted
  generalize hnote' : session.note _ = noted'
  have hnoted : noted.calls = noted'.calls := hnote ▸ hnote' ▸ hcalls
  have hnotedWatches : noted.watches = noted'.watches := hnote ▸ hnote' ▸ hwatches
  obtain ⟨hresult, hcalls⟩ := alert_congr phase noted'.watches hnoted
  rw [hnotedWatches]
  rcases halert : alert phase noted'.watches noted with ⟨result, later⟩
  rcases halert' : alert phase noted'.watches noted' with ⟨result', middle⟩
  rw [halert, halert'] at hresult hcalls
  cases hresult
  cases result with
  | error failure => exact ⟨rfl, hcalls⟩
  | ok =>
      have hsame : later.calls = middle.calls := hcalls
      refine ⟨rfl, ?_⟩
      exact congrArg (fun calls : Calls =>
        Array.modify calls own fun call => { call with phase := phase }) hsame

/-- Whether a trace search is let pass depends on the calls and on who watches. -/
theorem passes_congr
    {session after : Session}
    (hcalls : after.calls = session.calls)
    (hwatches : after.watches = session.watches)
    (own : CallId)
    (phase : SearchPhase) :
    after.Passes own phase ↔ session.Passes own phase := by
  obtain ⟨hresult, hafter⟩ := enterPhase_congr hcalls hwatches own phase
  rw [Passes, Passes, call, call, hresult, hafter]

theorem passes_reopening
    (session : Session)
    (task : TaskId)
    (rest : List Frame)
    (own : CallId)
    (phase : SearchPhase) :
    (session.reopening task rest).Passes own phase ↔ session.Passes own phase := by
  have hcalls : (session.reopening task rest).calls = session.calls := rfl
  exact passes_congr hcalls rfl own phase

theorem alert_of_unwatched
    {phase : SearchPhase}
    {watches : List (SearchPhase × CallId)}
    (h : ∀ watch ∈ watches, watch.1 ≠ phase)
    (session : Session) :
    alert phase watches session = (.ok (), { session with watches := watches }) := by
  induction watches with
  | nil => rfl
  | cons watch rest ih =>
      obtain ⟨hwatch, hrest⟩ := List.forall_mem_cons.mp h
      rw [alert, if_neg hwatch, ih hrest]

/-- A trace search is let pass to a phase that nobody watches for, unless it was canceled. -/
theorem passes_of_unwatched
    {session : Session}
    {own : CallId}
    {phase : SearchPhase}
    (hunwatched : ∀ watch ∈ session.watches, watch.1 ≠ phase)
    (hflag : (session.call own).canceled = false) :
    session.Passes own phase := by
  unfold Passes enterPhase
  dsimp only
  generalize hnote : session.note _ = noted
  have hwatches : noted.watches = session.watches := hnote ▸ rfl
  have hcalls : noted.calls = session.calls := hnote ▸ rfl
  rw [alert_of_unwatched (hwatches ▸ hunwatched)]
  refine ⟨rfl, ?_⟩
  have hsame := Calls.field_modify Call.canceled (fun call => { call with phase := phase })
    (fun _ => rfl) noted.calls own own
  exact hsame.trans (hcalls ▸ hflag)

/-- A trace search that was canceled is not let pass. -/
theorem Passes.canceled
    {session : Session}
    {own : CallId}
    {phase : SearchPhase}
    (h : session.Passes own phase) :
    (session.call own).canceled = false := by
  cases hflag : (session.call own).canceled with
  | false => rfl
  | true =>
      have hafter := (marks_enterPhase session own phase).calls.canceled own hflag
      exact hafter.symm.trans h.2

/-! ### The reply to a search -/

/-- What a search makes of its reply when it goes on with an outcome. -/
def received
    (session : Session)
    (stage : CallId)
    (asked : Search)
    (reply : Reply) :
    Outcome → Outcome
  | .ok _ => session.readReply stage asked reply
  | .error failure => .error failure

/-- The task of a call is about to go on with the reply to the search that the call waits for. -/
structure Resumes
    (session : Session)
    (task : TaskId)
    (outcome : Outcome)
    (stage : CallId)
    (reply : Reply)
    (frame : Frame) : Prop where
  active : session.active = some (task, .after outcome)
  stack : ∃ asked rest, (session.task task).stack = .reply stage asked reply :: frame :: rest

/-- A search ends with what it makes of its reply. -/
theorem step_of_reply_eq
    {session : Session}
    {task : TaskId}
    {outcome : Outcome}
    {stage : CallId}
    {asked : Search}
    {reply : Reply}
    {rest : List Frame}
    (hactive : session.active = some (task, .after outcome))
    (hstack : (session.task task).stack = .reply stage asked reply :: rest) :
    session.step = ((session.reopening task rest).closing stage
      (session.received stage asked reply outcome)).goOn task (.after
        (conclusion (session.call stage) (session.received stage asked reply outcome)).2) := by
  have hresume : (session.reopening task rest).resume (.reply stage asked reply) outcome =
      (.ends (session.received stage asked reply outcome), session.reopening task rest) := by
    cases outcome <;> rfl
  rw [step_after_cons hactive hstack, hresume]
  rfl

/-- A search hands what it makes of its reply to the call that waits for it. -/
theorem step_of_reply
    {session : Session}
    {task : TaskId}
    {outcome : Outcome}
    {stage : CallId}
    {asked : Search}
    {reply : Reply}
    {rest : List Frame}
    (h : session.Sound)
    (hactive : session.active = some (task, .after outcome))
    (hstack : (session.task task).stack = .reply stage asked reply :: rest) :
    let given := (conclusion (session.call stage) (session.received stage asked reply outcome)).2
    session.step.active = some (task, .after given) ∧
      (session.step.task task).stack = rest ∧
      session.step.history = .concluded stage given :: session.history := by
  rw [step_of_reply_eq hactive hstack]
  refine ⟨rfl, ?_, history_note_of_subject rfl _⟩
  have hrest := task_reopening (h.running task _ hactive).1 rest task
  exact (congrArg Task.stack hrest).trans (by rw [if_pos rfl])

/-- The end of a body issues nothing. -/
theorem stages_of_concluded
    {session after : Session}
    {own : CallId}
    {outcome : Outcome}
    (h : after.history = .concluded own outcome :: session.history)
    (id : CallId) :
    after.stages id = session.stages id := by
  have htold : after.history = [.concluded own outcome] ++ session.history := h
  exact stages_of_history_eq htold (by simp [Observation.stage?])

/-- A search comes to a value just when it goes on undisturbed with a reply that can be read. -/
theorem conclusion_received_eq_ok_iff
    {session : Session}
    {stage : CallId}
    {asked : Search}
    {reply : Reply}
    {outcome : Outcome}
    {given : Value} :
    (conclusion (session.call stage) (session.received stage asked reply outcome)).2 = .ok given ↔
      (∃ value, outcome = .ok value) ∧
        (∃ body, reply.result = .ok body ∧ asked.reading.read body = .ok given) ∧
        (session.call stage).canceled = false := by
  constructor
  · intro h
    obtain ⟨hreceived, hflag⟩ := eq_of_conclusion_eq_ok h
    cases outcome with
    | error failure => cases hreceived
    | ok value => exact ⟨⟨value, rfl⟩, (readReply_eq_ok hreceived).2, hflag⟩
  · rintro ⟨⟨value, rfl⟩, ⟨body, hbody, hread⟩, hflag⟩
    have hreceived : session.received stage asked reply (.ok value) = .ok given := by
      rw [received, readReply, hbody]
      dsimp only
      rw [hflag, if_neg Bool.false_ne_true, hread]
      rfl
    rw [hreceived, conclusion, hflag, if_neg Bool.false_ne_true]

/-! ### From the first phase to the second -/

/-- What it takes for a trace search to go on to its second phase when its task goes on with the
reply to the listing: the task was not canceled, the reply lists trace IDs, neither the trace search
nor its listing was canceled, and it is let pass. -/
structure Proceeds
    (session : Session)
    (id : CallId)
    (outcome : Outcome)
    (stage : CallId)
    (reply : Reply)
    (ids : List String) : Prop where
  arrived : ∃ value, outcome = .ok value
  listed : ∃ body, reply.result = .ok body ∧ Response.traceIds body = .ok ids
  nonempty : ids ≠ []
  listing : (session.call stage).canceled = false
  call : (session.call id).canceled = false
  passes : session.step.Passes id .fetching

/-- The fetch of a trace search is about to begin, as a new call. -/
structure Fetching
    (session : Session)
    (task : TaskId)
    (id : CallId)
    (search : TraceSearch)
    (ids : List String)
    (stage second : CallId) : Prop where
  active : session.active = some (task, .before second)
  stages : session.stages id = [stage, second]
  plan : (session.call second).plan = .search (search.fetch ids)
  fresh : session.calls.IsFresh second

/-- A trace search that is given trace IDs and let pass issues the fetch. -/
theorem fetching_of_passes
    {session : Session}
    {task : TaskId}
    {id stage : CallId}
    {search : TraceSearch}
    {given : Value}
    {rest : List Frame}
    (h : session.Sound)
    (hactive : session.active = some (task, .after (.ok given)))
    (hstack : (session.task task).stack = .listing id search :: rest)
    (hstages : session.stages id = [stage])
    (hids : given.texts ≠ [])
    (hpasses : session.Passes id .fetching) :
    session.step.Fetching task id search given.texts stage session.calls.size := by
  have hengaged := engaged_reopening h hactive hstack
  have hpiece := piece_reopening h hactive hstack
  have hissues : Issues id (search.fetch given.texts) (.fetching id search given.texts)
      (session.reopening task rest)
      ((session.reopening task rest).resume (.listing id search) (.ok given)) := by
    rw [resume, fetchListed, if_neg (by simpa using hids)]
    exact issues_of_passes ((passes_reopening session task rest id _).mpr hpasses) hengaged.call _ _
  have hfits := hpiece.fits
  rw [hissues.progress] at hfits
  have hfresh := hpiece.grows.fresh session.calls.size hfits.2.2.2 (Nat.le_refl _)
  have hissued := stages_of_issued hissues.history
  have hbefore : (session.reopening task rest).stages id = [stage] := hstages
  rw [hbefore, List.singleton_append] at hissued
  rw [step_after_cons hactive hstack]
  refine ⟨?_, ?_, ?_, ?_⟩
  · rw [hissues.progress]
    rfl
  · rw [stages_advance]
    exact hissued
  · rw [hissues.progress]
    exact hissues.plan
  · rw [hissues.progress]
    exact hfresh

/-- A trace search that is given no trace IDs, or is not let pass, ends without a fetch. -/
theorem ended_of_not_passes
    {session : Session}
    {task : TaskId}
    {id : CallId}
    {search : TraceSearch}
    {given : Value}
    {rest : List Frame}
    (h : session.Sound)
    (hactive : session.active = some (task, .after (.ok given)))
    (hstack : (session.task task).stack = .listing id search :: rest)
    (hrefused : given.texts = [] ∨ ¬ session.Passes id .fetching) :
    (session.step.call id).state.isFinal = true ∧
      session.step.stages id = session.stages id := by
  have hends : ∃ result, ((session.reopening task rest).resume
      (.listing id search) (.ok given)).1 = .ends result ∧
      Silent (session.reopening task rest)
        ((session.reopening task rest).resume (.listing id search) (.ok given)).2 := by
    by_cases hids : given.texts = []
    · obtain ⟨result, hresult⟩ := ends_resume_listing hids (session.reopening task rest) id search
      exact ⟨result, hresult, silent_resume fun _ _ _ => hids⟩
    · have hpasses := hrefused.resolve_left hids
      have hafter : ¬ (session.reopening task rest).Passes id .fetching :=
        fun hpassed => hpasses ((passes_reopening session task rest id _).mp hpassed)
      rw [resume, fetchListed, if_neg (by simpa using hids)]
      have hgives := givesUp_of_not_passes hafter (search.fetch given.texts)
        (.fetching id search given.texts)
      obtain ⟨failure, hfailed⟩ := hgives.failed
      exact ⟨_, hfailed, hgives.toSilent⟩
  obtain ⟨result, hresult, hsilent⟩ := hends
  obtain ⟨_, _, hfinal, hhistory⟩ := step_of_ends h hactive hstack hresult
  refine ⟨hfinal, ?_⟩
  rw [hsilent.history] at hhistory
  exact stages_of_concluded hhistory _

/-- The fetch that was issued. -/
theorem Fetching.issued
    {session : Session}
    {task : TaskId}
    {id stage second : CallId}
    {search : TraceSearch}
    {ids : List String}
    (h : session.Fetching task id search ids stage second)
    (hrecorded : session.Recorded)
    (hplan : (session.call id).plan = .traceSearch search) :
    session.issued id = [search.listing, search.fetch ids] := by
  have hcourse := hrecorded.course id search hplan
  rw [h.stages] at hcourse
  rw [Session.issued, h.stages]
  cases hcourse with
  | fetching hfirst _ _ _ =>
      rw [List.filterMap_cons_some (search?_of_plan hfirst),
        List.filterMap_cons_some (search?_of_plan h.plan), List.filterMap_nil]

/-- The fetch that was issued is sent with the next step. -/
theorem Fetching.sent
    {session : Session}
    {task : TaskId}
    {id stage second : CallId}
    {search : TraceSearch}
    {ids : List String}
    (h : session.Fetching task id search ids stage second)
    (hreachable : session.Reachable)
    (hplan : (session.call id).plan = .traceSearch search) :
    session.step.sent id = [search.listing, search.fetch ids] ∧
      session.step.issued id = [search.listing, search.fetch ids] := by
  have hsound := sound_of_reachable hreachable
  have hstep := Relation.ReflTransGen.single (Move.step session)
  have hnew : (session.call second).state = .new := state_of_isFresh h.fresh
  have hflag : (session.call second).canceled = false := by
    obtain ⟨plan, first, hget, _⟩ := h.fresh
    rw [call, hget]
    rfl
  have hextends : Extends second [.searched second (search.fetch ids), .began second]
      session session.step := by
    rw [step_before_of_new h.active hnew hflag]
    exact extends_begin_of_plan_search hsound h.active hnew h.plan
  have hstages := stages_of_searched hextends id
  have hissued : session.step.issued id = [search.listing, search.fetch ids] := by
    rw [Session.issued, hstages, filterMap_search?_of_run hreachable hstep hplan]
    exact h.issued (recorded_of_reachable hreachable) hplan
  have hlast : (session.step.stages id).getLast? = some second := by
    rw [hstages, h.stages]
    rfl
  have hasked : session.step.hasAsked second = true := by
    rw [hasAsked_of_searched hextends, decide_eq_true rfl, Bool.true_or]
  have hafter := plan_eq_of_run hreachable hstep hplan (traceSearch_ne_default search)
  have hsent := sent_eq_issued_of_hasAsked (hreachable.of_run hstep) hafter hlast hasked
  exact ⟨hsent.trans hissued, hissued⟩

/-- A session whose task is about to go on for a call makes a step, unless nothing more is issued
for that call. -/
theorem stages_or_run_step
    {session after : Session}
    {task : TaskId}
    {point : Point}
    {id : CallId}
    (h : session.Reachable)
    (hactive : session.active = some (task, point))
    (honStack : Calls.OnStack id (session.task task).stack)
    (hrun : Run session after) :
    after.stages id = session.stages id ∨ Run session.step after := by
  rcases Relation.ReflTransGen.cases_head hrun with rfl | ⟨next, hmove, hrest⟩
  · exact Or.inl rfl
  · rcases eq_step_or_breakOff_of_move (sound_of_reachable h) hactive hmove with rfl | rfl
    · exact Or.inr hrest
    · have hfailing : (session.goOn task (.after (.error .endless))).IsFailing id :=
        ⟨task, honStack, Or.inr ⟨.endless, rfl⟩⟩
      have hstages := stages_of_run_of_ending (h.of_move hmove) hrest (Or.inl hfailing)
      exact Or.inl hstages

section Resumption

variable {session after : Session} {task : TaskId} {outcome : Outcome} {id stage : CallId}
  {reply : Reply} {search : TraceSearch} {frame : Frame} {ids : List String}

/-- The search whose reply is there is the last one that was issued, and it was sent. -/
theorem Resumes.last
    (h : session.Resumes task outcome stage reply frame)
    (hreachable : session.Reachable)
    (hplan : (session.call frame.call).plan = .traceSearch search) :
    (session.stages frame.call).getLast? = some stage ∧ session.hasAsked stage = true := by
  obtain ⟨asked, rest, hstack⟩ := h.stack
  have hsteady := (sound_of_reachable hreachable).steady
  have hbacked := (recorded_of_reachable hreachable).backed task
  rw [hstack] at hbacked
  obtain ⟨hanswered, hwaits, _⟩ :=
    List.forall_mem_cons.mp hbacked |>.imp_right List.forall_mem_cons.mp
  have hawaits := ((hsteady.framesHold task).chained _ _ hstack).1
  have hfits := ((hsteady.framesHold task).holds frame
    (hstack ▸ List.mem_cons_of_mem _ List.mem_cons_self)).2.2
  refine ⟨?_, Answered.hasAsked hanswered⟩
  rw [← call, hplan] at hfits
  rcases hfits.of_traceSearch with ⟨own, rfl⟩ | ⟨own, ids, rfl⟩
  · obtain ⟨last, hstages, hnext⟩ := hwaits
    cases hnext.symm.trans hawaits
    exact congrArg List.getLast? hstages
  · obtain ⟨earlier, last, hstages, hnext, _⟩ := hwaits
    cases hnext.symm.trans hawaits
    exact congrArg List.getLast? hstages

/-- A trace search that is about to go on with the reply to its listing has issued only that. -/
theorem Resumes.listing
    (h : session.Resumes task outcome stage reply (.listing id search))
    (hreachable : session.Reachable) :
    session.stages id = [stage] ∧ session.issued id = [search.listing] ∧
      ∃ rest, (session.task task).stack =
        .reply stage search.listing reply :: .listing id search :: rest := by
  obtain ⟨asked, rest, hstack⟩ := h.stack
  have hholds := (((sound_of_reachable hreachable).steady).framesHold task).holds
  have hrecorded := recorded_of_reachable hreachable
  have hlisting : Frame.listing id search ∈ (session.task task).stack :=
    hstack ▸ List.mem_cons_of_mem _ List.mem_cons_self
  have hreply : Frame.reply stage asked reply ∈ (session.task task).stack :=
    hstack ▸ List.mem_cons_self
  have hasked : (session.call stage).plan = .search asked := (hholds _ hreply).2.2
  have hplan : (session.call id).plan = .traceSearch search := (hholds _ hlisting).2.2
  have hlast := (h.last hreachable hplan).1
  have hcourse := hrecorded.course id search hplan
  obtain ⟨first, hstages, _⟩ := hrecorded.backed task _ hlisting
  rw [Frame.call, hstages] at hlast
  cases (Option.some.inj hlast : first = stage)
  rw [hstages] at hcourse
  cases hcourse with
  | listing hfirst =>
      cases hasked.symm.trans hfirst
      refine ⟨hstages, ?_, rest, hstack⟩
      rw [issued, hstages, List.filterMap_cons_some (search?_of_plan hfirst), List.filterMap_nil]

/-- A session that is about to go on with a reply hands it on and lets the call that waits for it
go on, unless nothing more is issued for that call. -/
theorem Resumes.stages_or_run
    (h : session.Resumes task outcome stage reply frame)
    (hreachable : session.Reachable)
    (hrun : Run session after) :
    after.stages frame.call = session.stages frame.call ∨ Run session.step.step after := by
  obtain ⟨asked, rest, hstack⟩ := h.stack
  obtain ⟨hactive, hrest, hhistory⟩ := step_of_reply (sound_of_reachable hreachable) h.active hstack
  have hframe : frame ∈ (session.task task).stack :=
    hstack ▸ List.mem_cons_of_mem _ List.mem_cons_self
  rcases stages_or_run_step hreachable h.active ⟨frame, hframe, rfl⟩ hrun with hsame | hrun
  · exact Or.inl hsame
  · have hnext : frame ∈ (session.step.task task).stack := hrest ▸ List.mem_cons_self
    have hstages : session.step.stages frame.call = session.stages frame.call :=
      stages_of_concluded hhistory _
    rw [← hstages]
    exact stages_or_run_step (hreachable.of_move (.step session)) hactive ⟨frame, hnext, rfl⟩ hrun

/-- A trace search that proceeds has its fetch issued and sent within three steps. -/
theorem sent_of_proceeds
    (h : session.Resumes task outcome stage reply (.listing id search))
    (hproceeds : session.Proceeds id outcome stage reply ids)
    (hreachable : session.Reachable)
    (hplan : (session.call id).plan = .traceSearch search) :
    session.step.step.issued id = [search.listing, search.fetch ids] ∧
      session.step.step.step.sent id = [search.listing, search.fetch ids] ∧
        session.step.step.step.issued id = [search.listing, search.fetch ids] := by
  have hstep : Run session session.step := .single (.step session)
  have hsteps : Run session session.step.step := hstep.tail (.step session.step)
  obtain ⟨hstages, _, rest, hstack⟩ := h.listing hreachable
  obtain ⟨body, hbody, hids⟩ := hproceeds.listed
  have hread : search.listing.reading.read body = .ok (.ofTexts ids) := by
    change (Response.traceIds body).map Value.ofTexts = .ok (.ofTexts ids)
    rw [hids]
    rfl
  have hgiven : (conclusion (session.call stage)
      (session.received stage search.listing reply outcome)).2 = .ok (.ofTexts ids) :=
    conclusion_received_eq_ok_iff.mpr
      ⟨hproceeds.arrived, ⟨body, hbody, hread⟩, hproceeds.listing⟩
  obtain ⟨hactive, hrest, hhistory⟩ := step_of_reply (sound_of_reachable hreachable) h.active hstack
  rw [hgiven] at hactive hhistory
  have hkept : session.step.stages id = [stage] :=
    (stages_of_concluded hhistory id).trans hstages
  have hfetching := fetching_of_passes (sound_of_reachable (hreachable.of_run hstep)) hactive hrest
    hkept (by simpa using hproceeds.nonempty) hproceeds.passes
  rw [Value.texts_ofTexts] at hfetching
  have hafter := plan_eq_of_run hreachable hsteps hplan (traceSearch_ne_default search)
  have hlater := hreachable.of_run hsteps
  exact ⟨hfetching.issued (recorded_of_reachable hlater) hafter, hfetching.sent hlater hafter⟩

/-- A trace search that does not proceed ends without a fetch. -/
theorem ended_of_not_proceeds
    (h : session.Resumes task outcome stage reply (.listing id search))
    (hrefused : ∀ ids, ¬ session.Proceeds id outcome stage reply ids)
    (hreachable : session.Reachable) :
    (session.step.step.call id).state.isFinal = true ∧
      session.step.step.stages id = session.stages id := by
  have hsound := sound_of_reachable hreachable
  have hmove := Move.step session
  have hnext := sound_of_move hsound hmove
  obtain ⟨_, _, rest, hstack⟩ := h.listing hreachable
  obtain ⟨hactive, hrest, hhistory⟩ := step_of_reply hsound h.active hstack
  have hkept : session.step.stages id = session.stages id :=
    stages_of_concluded hhistory _
  cases hgiven : (conclusion (session.call stage)
      (session.received stage search.listing reply outcome)).2 with
  | error failure =>
      rw [hgiven] at hactive
      obtain ⟨_, _, hfinal, hlast⟩ := step_of_failure hnext hactive hrest
      have hstages : session.step.step.stages id = session.step.stages id :=
        stages_of_concluded hlast _
      exact ⟨hfinal, hstages.trans hkept⟩
  | ok given =>
      rw [hgiven] at hactive
      have hstuck : given.texts = [] ∨ ¬ session.step.Passes id .fetching := by
        by_cases hids : given.texts = []
        · exact Or.inl hids
        · refine Or.inr fun hpasses => hrefused given.texts ?_
          obtain ⟨harrived, ⟨body, hbody, hread⟩, hlisting⟩ :=
            conclusion_received_eq_ok_iff.mp hgiven
          refine ⟨harrived, ⟨body, hbody, traceIds_of_read hread⟩, hids, hlisting, ?_, hpasses⟩
          cases hflag : (session.call id).canceled with
          | false => rfl
          | true =>
              have hlater :=
                (flags_of_move hsound hmove).canceled id (lt_size_of_canceled hflag) hflag
              exact hlater.symm.trans hpasses.canceled
      obtain ⟨hfinal, hstages⟩ := ended_of_not_passes hnext hactive hrest hstuck
      exact ⟨hfinal, hstages.trans hkept⟩

/-- A trace search fetches the spans of some traces just when it proceeds to them. -/
theorem exists_issued_iff_proceeds
    (h : session.Resumes task outcome stage reply (.listing id search))
    (hreachable : session.Reachable)
    (hplan : (session.call id).plan = .traceSearch search) :
    (∃ after, Run session after ∧ after.issued id = [search.listing, search.fetch ids]) ↔
      session.Proceeds id outcome stage reply ids := by
  have hsteps : Run session session.step.step :=
    (Relation.ReflTransGen.single (.step session)).tail (.step session.step)
  constructor
  · rintro ⟨after, hrun, hissued⟩
    have hmore : after.stages id ≠ session.stages id := by
      intro hsame
      have hissued' := filterMap_search?_of_run hreachable hrun hplan
      rw [← hsame] at hissued'
      have hlisting := (hissued'.trans (h.listing hreachable).2.1).symm.trans hissued
      cases hlisting
    have hlater := (h.stages_or_run hreachable hrun).resolve_left hmore
    by_cases hsome : ∃ ids, session.Proceeds id outcome stage reply ids
    · obtain ⟨others, hproceeds⟩ := hsome
      have hmiddle := (sent_of_proceeds h hproceeds hreachable hplan).1
      have hafter := plan_eq_of_run hreachable hsteps hplan (traceSearch_ne_default search)
      have hsubset := issued_isPrefixOf_of_run (hreachable.of_run hsteps) hlater hafter
      rw [hmiddle, hissued] at hsubset
      have hsame := hsubset.eq_of_length rfl
      simp only [List.cons.injEq, and_true, true_and] at hsame
      exact TraceSearch.fetch_inj.mp hsame ▸ hproceeds
    · obtain ⟨hfinal, hkept⟩ := ended_of_not_proceeds h (not_exists.mp hsome) hreachable
      have hstages := stages_of_run_of_ending (hreachable.of_run hsteps) hlater (Or.inr hfinal)
      exact absurd (hstages.trans hkept) hmore
  · intro hproceeds
    exact ⟨_, hsteps.tail (.step session.step.step),
      (sent_of_proceeds h hproceeds hreachable hplan).2.2⟩

/-- A search whose reply is a failure fails with it, and so does the trace search that waits for
it. -/
theorem failed_of_reply
    {value : Value}
    {failure : Failure}
    (h : session.Resumes task (.ok value) stage reply frame)
    (hreply : reply.result = .error failure)
    (hreachable : session.Reachable) :
    session.step.step.history =
        .concluded frame.call (.error failure) :: .concluded stage (.error failure) ::
          session.history ∧
      session.step.step.active = some (task, .after (.error failure)) ∧
        (session.step.step.call frame.call).state.isFinal = true := by
  have hsound := sound_of_reachable hreachable
  obtain ⟨asked, rest, hstack⟩ := h.stack
  obtain ⟨hactive, hrest, hhistory⟩ := step_of_reply hsound h.active hstack
  have hgiven : (conclusion (session.call stage)
      (session.received stage asked reply (.ok value))).2 = .error failure := by
    rw [received, readReply, hreply]
    exact conclusion_error _ failure
  rw [hgiven] at hactive hhistory
  obtain ⟨hnext, _, hfinal, hlast⟩ :=
    step_of_failure (sound_of_move hsound (.step session)) hactive hrest
  exact ⟨hlast.trans (congrArg _ hhistory), hnext, hfinal⟩

/-- When nobody watches for the second phase, a trace search is let pass to it unless it was
canceled. -/
theorem passes_step_of_unwatched
    (h : session.Resumes task outcome stage reply frame)
    (hunwatched : ∀ watch ∈ session.watches, watch.1 ≠ .fetching)
    (hflag : (session.call id).canceled = false) :
    session.step.Passes id .fetching := by
  obtain ⟨asked, rest, hstack⟩ := h.stack
  rw [step_of_reply_eq h.active hstack]
  have hsame := Calls.get_setState Call.canceled
    (conclusion (session.call stage) (session.received stage asked reply outcome)).1 (fun _ => rfl)
    session.calls stage id
  exact passes_of_unwatched hunwatched (hsame.trans hflag)

end Resumption

/-! ### The protocol -/

/-- The fetch asks every partition of spans for the documents of just the given traces. -/
theorem toJson_fetch (search : TraceSearch) (ids : List String) :
    (search.fetch ids).request.toJson (search.fetch ids).maxHits =
      .obj [("size", search.maxHits),
        ("query", .single "terms" (.single "traceId" (.arr (ids.map .str))))] :=
  rfl

end Session

/-- A span store has a trace search fetch from all partitions of spans. -/
theorem SpanStore.spanIndices_of_traces
    {store : SpanStore}
    {criteria : Criteria}
    {search : TraceSearch}
    {log : List String}
    (h : store.traces criteria = .ok ⟨.traceSearch search, log⟩) :
    search.spanIndices = [store.naming.allPattern DocType.span] := by
  obtain ⟨indices, -, hplans⟩ := traces_eq_ok h
  cases hplans with
  | nothing _ hempty => cases hempty
  | search _ hplan =>
      cases hplan
      rfl

namespace Session

/-- The searches of a trace search, whatever happens in a session.
They are its listing, and then the fetch of the listed traces, if any; each is sent at most once,
and while the trace search waits all have been sent (`issued`, `sent`, `paused`).
When the reply to the listing is there, the fetch is sent just if the trace search proceeds
(`fetches`), which is up to nobody else when nobody watches for that phase (`unwatched`).
Nothing more is sent once the trace search was canceled, or its task while it waited, and a search
that fails ends it with the same failure (`canceled`, `cancels`, `interrupted`, `failed`). -/
structure FollowsProtocol (session : Session) (id : CallId) (search : TraceSearch) : Prop where
  issued : session.issued id = [] ∨ session.issued id = [search.listing] ∨
    ∃ ids, ids ≠ [] ∧ session.Lists id search ids ∧
      session.issued id = [search.listing, search.fetch ids]
  sent : session.sent id <+: session.issued id
  paused : session.IsPaused id → session.sent id = session.issued id
  fetches : ∀ task outcome stage reply ids,
    session.Resumes task outcome stage reply (.listing id search) →
      ((∃ after, Run session after ∧ after.issued id = [search.listing, search.fetch ids]) ↔
        session.Proceeds id outcome stage reply ids) ∧
      (session.Proceeds id outcome stage reply ids →
        session.step.step.step.sent id = [search.listing, search.fetch ids])
  unwatched : ∀ task outcome stage reply,
    session.Resumes task outcome stage reply (.listing id search) →
      (∀ watch ∈ session.watches, watch.1 ≠ .fetching) → (session.call id).canceled = false →
        session.step.Passes id .fetching
  canceled : (session.call id).canceled = true → IsOver session session id
  cancels : session.IsIdle →
    ((session.cancel id).2.call id).canceled = true ∧ IsOver session (session.cancel id).2 id
  interrupted : session.IsIdle → ∀ task, Calls.OnStack id (session.task task).stack →
    IsOver session (session.cancelTask task).2 id
  failed : ∀ task value stage reply frame failure,
    session.Resumes task (.ok value) stage reply frame → frame.call = id →
      reply.result = .error failure →
        session.step.step.history =
            .concluded id (.error failure) :: .concluded stage (.error failure) ::
              session.history ∧
          session.sent id = session.issued id ∧ IsOver session session id

/-- It is over for a trace search whose task is canceled while it waits. -/
theorem isOver_cancelTask
    {session : Session}
    {task : TaskId}
    {id : CallId}
    {search : TraceSearch}
    (h : session.Reachable)
    (hplan : (session.call id).plan = .traceSearch search)
    (hidle : session.IsIdle)
    (honStack : Calls.OnStack id (session.task task).stack) :
    IsOver session (session.cancelTask task).2 id := by
  have hsteady := (sound_of_reachable h).steady
  have hmove := Move.cancelTask session task hidle (lt_size_of_onStack honStack)
  have hfailing := isFailing_cancelTask hsteady honStack (not_running_of_isIdle h hidle task)
  have hhistory : (session.cancelTask task).2.history = session.history :=
    (outside_cancelTask hidle task).rests.history
  have hkept : (session.cancelTask task).2.stages id = session.stages id := by
    rw [stages, hhistory, stages]
  refine isOver_of_stages h (.single hmove) hplan fun after hafter => ?_
  exact (stages_of_run_of_ending (h.of_move hmove) hafter (Or.inl hfailing)).trans hkept

/-- It is over for a trace search whose search has failed. -/
theorem isOver_of_reply
    {session : Session}
    {task : TaskId}
    {value : Value}
    {stage : CallId}
    {reply : Reply}
    {frame : Frame}
    {failure : Failure}
    {search : TraceSearch}
    (h : session.Resumes task (.ok value) stage reply frame)
    (hreply : reply.result = .error failure)
    (hreachable : session.Reachable)
    (hplan : (session.call frame.call).plan = .traceSearch search) :
    IsOver session session frame.call := by
  have hsteps : Run session session.step.step :=
    (Relation.ReflTransGen.single (.step session)).tail (.step session.step)
  obtain ⟨hhistory, _, hfinal⟩ := failed_of_reply h hreply hreachable
  have htold : session.step.step.history = [.concluded frame.call (.error failure),
      .concluded stage (.error failure)] ++ session.history := hhistory
  have hkept : session.step.step.stages frame.call = session.stages frame.call :=
    stages_of_history_eq htold (by simp [Observation.stage?])
  refine isOver_of_stages hreachable .refl hplan fun after hafter => ?_
  rcases h.stages_or_run hreachable hafter with hsame | hrun
  · exact hsame
  · exact (stages_of_run_of_ending (hreachable.of_run hsteps) hrun (Or.inr hfinal)).trans hkept

/-- **The protocol of trace searches.**  In every session every trace search issues its listing and
then at most one fetch, which asks all partitions of spans for just the listed traces, in their
order; it does so exactly when the reply to the listing lists any and nothing was canceled
before. -/
theorem followsProtocol
    {session : Session}
    {id : CallId}
    {search : TraceSearch}
    (h : session.Reachable)
    (hplan : (session.call id).plan = .traceSearch search) :
    session.FollowsProtocol id search ∧
      (∀ ids, (search.fetch ids).request.toJson (search.fetch ids).maxHits =
        .obj [("size", search.maxHits),
          ("query", .single "terms" (.single "traceId" (.arr (ids.map .str))))]) ∧
      ∀ store criteria log, SpanStore.traces store criteria = .ok ⟨.traceSearch search, log⟩ →
        ∀ ids, (search.fetch ids).request.indices = [store.naming.allPattern DocType.span] := by
  have hid : id < session.calls.size :=
    lt_size_of_plan_ne (hplan ▸ traceSearch_ne_default search)
  refine ⟨⟨?_, ?_, ?_, ?_, ?_, ?_, ?_, ?_, ?_⟩, toJson_fetch search, ?_⟩
  · exact issued_cases (recorded_of_reachable h) hplan
  · exact sent_isPrefixOf_issued h hplan
  · exact sent_eq_issued_of_isPaused h hplan
  · intro task outcome stage reply ids hresumes
    refine ⟨exists_issued_iff_proceeds hresumes h hplan, fun hproceeds => ?_⟩
    exact (sent_of_proceeds hresumes hproceeds h hplan).2.1
  · intro task outcome stage reply hresumes hunwatched hflag
    exact passes_step_of_unwatched hresumes hunwatched hflag
  · intro hflag
    exact isOver_of_stages h .refl hplan fun after hafter =>
      stages_of_run_of_canceled h hafter hflag
  · intro hidle
    have hmove := Move.cancel session id hidle hid
    have hflag := canceled_cancel hid (hplan ▸ rfl)
    refine ⟨hflag, isOver_of_stages h (.single hmove) hplan ?_⟩
    intro after hafter
    exact (stages_of_run_of_canceled (h.of_move hmove) hafter hflag :)
  · exact fun hidle task honStack => isOver_cancelTask h hplan hidle honStack
  · rintro task value stage reply frame failure hresumes rfl hreply
    obtain ⟨hlast, hasked⟩ := hresumes.last h hplan
    exact ⟨(failed_of_reply hresumes hreply h).1, sent_eq_issued_of_hasAsked h hplan hlast hasked,
      isOver_of_reply hresumes hreply h hplan⟩
  · intro store criteria log htraces ids
    exact SpanStore.spanIndices_of_traces htraces

/-- A session in which the reply to the listing of two traces is there. -/
def listed : Session :=
  (((start listingTwo).define "traces" (.traceSearch lasting)).spawn "" 0 .caller).settle 3

theorem reachable_listed : listed.Reachable := by
  have hdefine := Relation.ReflTransGen.single
    (Move.define (start listingTwo) "traces" (.traceSearch lasting) rfl)
  have hspawn := hdefine.tail (Move.spawn _ "" 0 .caller rfl (by decide))
  exact ⟨_, hspawn.trans (run_settle 3 _)⟩

/-- The search goes on to fetch the two traces. -/
theorem followsProtocol_listed :
    (listed.call 0).plan = .traceSearch lasting ∧ listed.issued 0 = [lasting.listing] ∧
      listed.step.step.step.sent 0 = [lasting.listing, lasting.fetch ["2", "1"]] := by
  have hplan : (listed.call 0).plan = .traceSearch lasting := rfl
  have hissued : listed.issued 0 = [lasting.listing] := rfl
  have hfollows := (followsProtocol reachable_listed hplan).1
  have hresumes : listed.Resumes 0 (.ok .null) 1 (listingTwo 0 lasting.listing)
      (.listing 0 lasting) :=
    ⟨rfl, lasting.listing, [], rfl⟩
  have hunwatched : ∀ watch ∈ listed.watches, watch.1 ≠ .fetching := by
    have hnil : listed.watches = [] := rfl
    simp [hnil]
  have hflag : (listed.call 0).canceled = false := rfl
  have hpasses := hfollows.unwatched 0 _ 1 _ hresumes hunwatched hflag
  refine ⟨hplan, hissued, (hfollows.fetches 0 _ 1 _ ["2", "1"] hresumes).2 ?_⟩
  exact ⟨⟨_, rfl⟩, ⟨_, rfl, rfl⟩, by simp, rfl, hflag, hpasses⟩

end Session
end TraceArchive
