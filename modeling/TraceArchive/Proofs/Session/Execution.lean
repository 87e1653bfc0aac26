import TraceArchive.Proofs.Session.Steps

/-!
# What the execution of a trace search comes to

A plan is executed by the only task of a session.  With a backend that keeps nobody waiting, a trace
search comes to what its two searches and the assembling of their results come to in turn.

* `SettlesWith`: a session settles, and its first task has ended with an outcome.
* `TraceSearch.outcome`: the phases of a trace search, one after the other.
* `settlesWith_traceSearch`: the execution of a trace search comes to that.
-/

set_option autoImplicit false

namespace TraceArchive

/-- The second phase of a trace search, which fetches the spans of listed traces. -/
def TraceSearch.fetched (search : TraceSearch) (backend : Backend) (ids : List String) : Outcome := do
  let body ← (backend 1 (search.fetch ids)).result
  let spans ← (Response.spans body).mapError .badResponse
  let traces ← (Trace.assemble search.criteria search.strict ids spans).mapError .badTraces
  return .ofTraces traces

/-- The phases of a trace search, one after the other; without listed traces there is no second. -/
def TraceSearch.outcome (search : TraceSearch) (backend : Backend) : Outcome := do
  let body ← (backend 0 search.listing).result
  let ids ← (Response.traceIds body).mapError .badResponse
  if ids.isEmpty then return .list [] else search.fetched backend ids

namespace Session

/-- The session in which a task executes the call of a plan. -/
def execution (backend : Backend) (plan : Plan) : Session :=
  let added := (start backend).add plan
  added.1.spawn "" added.2 .caller

/-- The session settles, and its first task has ended with an outcome. -/
def SettlesWith (session : Session) (outcome : Outcome) : Prop :=
  ∃ budget, (session.settle budget).isSettled = true ∧
    ((session.settle budget).task 0).state = .ended outcome

theorem settle_of_isSettled
    {session : Session}
    (h : session.isSettled = true)
    (budget : Nat) :
    session.settle budget = session := by
  cases budget with
  | zero => rfl
  | succ budget => rw [settle, if_pos h]

theorem settle_add (budget more : Nat) (session : Session) :
    session.settle (budget + more) = (session.settle budget).settle more := by
  induction budget generalizing session with
  | zero => rw [Nat.zero_add, settle]
  | succ budget ih =>
      rw [Nat.succ_add, settle, settle]
      split
      · rename_i hsettled
        exact (settle_of_isSettled hsettled more).symm
      · exact ih session.step

/-- A session settles with one outcome at most. -/
theorem SettlesWith.unique
    {session : Session} {first second : Outcome}
    (hfirst : session.SettlesWith first)
    (hsecond : session.SettlesWith second) :
    first = second := by
  obtain ⟨budget, hsettled, hended⟩ := hfirst
  obtain ⟨more, hsettled', hended'⟩ := hsecond
  have hsame : session.settle budget = session.settle more := by
    rw [← settle_of_isSettled hsettled more, ← settle_add, Nat.add_comm, settle_add,
      settle_of_isSettled hsettled' budget]
  rw [hsame, hended'] at hended
  exact (TaskState.ended.inj hended).symm

theorem settlesWith_of_step
    {session : Session} {outcome : Outcome}
    (hgoing : session.isSettled = false)
    (h : session.step.SettlesWith outcome) :
    session.SettlesWith outcome := by
  obtain ⟨budget, hsettled, hended⟩ := h
  have hsettle : session.settle (budget + 1) = session.step.settle budget := by
    rw [settle, if_neg (by simp [hgoing])]
  refine ⟨budget + 1, ?_, ?_⟩
  · rw [hsettle]
    exact hsettled
  · rw [hsettle]
    exact hended

/-! ### Scenes -/

/-- The session of a task that has come to a point. -/
def scene
    (backend : Backend)
    (calls : Calls)
    (searches : Nat)
    (stack : List Frame)
    (point : Point)
    (journal : List Observation) :
    Session where
  calls := calls
  labels := []
  backend := backend
  searches := searches
  gates := .closed
  tasks := #[⟨"", 0, .caller, .running, stack⟩]
  ready := []
  active := some (0, point)
  watches := []
  journal := journal

/-- The call of a trace search in a phase. -/
def ofTraceSearch
    (search : TraceSearch)
    (state : CallState)
    (phase : SearchPhase)
    (next : Option CallId) :
    Call :=
  ⟨.traceSearch search, state, false, 0, phase, none, next⟩

/-- The call of a search. -/
def ofSearch (search : Search) (state : CallState) : Call :=
  ⟨.search search, state, false, 0, .built, none, none⟩

theorem call_of_calls_eq_push
    {session : Session} {front : Calls} {last : Call}
    (h : session.calls = Array.push front last) :
    session.call front.size = last := by
  simp [call, Calls.get, h]

theorem modify_push_size (front : Calls) (call : Call) (change : Call → Call) :
    Array.modify (Array.push front call) front.size change = Array.push front (change call) := by
  refine Array.ext (by simp) fun i hi hi' => ?_
  rw [Array.getElem_modify, Array.getElem_push, Array.getElem_push]
  simp only [Array.size_modify, Array.size_push] at hi
  split <;> split <;> first | rfl | omega

variable {backend : Backend} {stack : List Frame} {searches : Nat} {journal : List Observation}

theorem conclusion_of_not_canceled
    {call : Call}
    (h : call.canceled = false)
    (outcome : Outcome) :
    (conclusion call outcome).2 = outcome := by
  cases outcome with
  | ok value => simp [conclusion, h]
  | error failure => cases failure <;> rfl

/-- What a search comes to is what its reply is read as. -/
def answerOf (search : Search) (result : Except Failure Json) : Outcome :=
  result.bind fun body => (search.reading.read body).mapError .badResponse

theorem begin_of_search
    {session : Session} {own : CallId} {search : Search}
    (hcall : session.call own = ofSearch search .executing) :
    session.begin own =
      (.waits (session.backend session.searches search).gate
        (.reply own search (session.backend session.searches search)),
      { session with searches := session.searches + 1 }.note (.searched own search)) := by
  rw [begin, hcall]
  rfl

theorem readReply_of_search
    {session : Session} {own : CallId} {search : Search}
    (hcall : session.call own = ofSearch search .executing)
    (result : Except Failure Json) :
    session.readReply own search ⟨none, result⟩ = answerOf search result := by
  cases result with
  | error failure => rfl
  | ok body =>
      rw [readReply, hcall]
      rfl

/-- A search that starts has its reply at once. -/
theorem step_before_search
    {front : Calls} {search : Search} {result : Except Failure Json}
    (hreply : backend searches search = ⟨none, result⟩) :
    (scene backend (Array.push front (ofSearch search .new)) searches stack (.before front.size)
      journal).step =
      scene backend (Array.push front (ofSearch search .executing)) (searches + 1)
        (.reply front.size search ⟨none, result⟩ :: stack) (.after (.ok .null))
        (.searched front.size search :: .began front.size :: journal) := by
  have hcall : (scene backend (Array.push front (ofSearch search .new)) searches stack
      (.before front.size) journal).call front.size = ofSearch search .new :=
    call_of_calls_eq_push rfl
  have hopening : (scene backend (Array.push front (ofSearch search .new)) searches stack
      (.before front.size) journal).opening front.size =
      { scene backend (Array.push front (ofSearch search .executing)) searches stack
          (.before front.size) (.began front.size :: journal) with active := none } := by
    simp only [opening, updateCall, note, scene, modify_push_size]
    rfl
  rw [step_before_of_new rfl (congrArg Call.state hcall) (congrArg Call.canceled hcall),
    hopening, begin_of_search (call_of_calls_eq_push rfl)]
  show Session.advance _ 0 _ (.waits (backend searches search).gate
    (.reply front.size search (backend searches search))) = _
  rw [hreply]
  rfl

/-- A search that is executed goes on with what its reply is read as. -/
theorem settlesWith_search
    {front : Calls} {search : Search} {result : Except Failure Json} {outcome : Outcome}
    (hreply : backend searches search = ⟨none, result⟩)
    (h : ∀ state journal', (scene backend (Array.push front (ofSearch search state)) (searches + 1)
      stack (.after (answerOf search result)) journal').SettlesWith outcome) :
    (scene backend (Array.push front (ofSearch search .new)) searches stack (.before front.size)
      journal).SettlesWith outcome := by
  have hreopening : ∀ journal', (scene backend (Array.push front (ofSearch search .executing))
      (searches + 1) (.reply front.size search ⟨none, result⟩ :: stack) (.after (.ok .null))
        journal').reopening 0 stack =
      { scene backend (Array.push front (ofSearch search .executing)) (searches + 1) stack
          (.after (.ok .null)) journal' with active := none } := fun _ => rfl
  refine settlesWith_of_step rfl ?_
  rw [step_before_search hreply]
  refine settlesWith_of_step rfl ?_
  rw [step_after_cons rfl rfl, hreopening, resume]
  show (Session.advance _ 0 front.size (.ends (readReply _ _ _ _))).SettlesWith outcome
  rw [readReply_of_search (call_of_calls_eq_push rfl), advance_ends, closing,
    call_of_calls_eq_push rfl, conclusion_of_not_canceled rfl]
  simp only [updateCall, note, scene, modify_push_size]
  exact h _ _

theorem reply_of_gate
    (hgate : ∀ count asked, (backend count asked).gate = none)
    (count : Nat) (asked : Search) :
    backend count asked = ⟨none, (backend count asked).result⟩ := by
  rw [← hgate count asked]

/-! ### The phases of a trace search -/

variable {search : TraceSearch} {next : Option CallId} {phase : SearchPhase}

/-- The last body ends the task with its outcome, when its call was not canceled. -/
theorem settlesWith_of_ends
    {session : Session} {outcome : Outcome}
    (htasks : session.tasks = #[⟨"", 0, .caller, .running, []⟩])
    (hready : session.ready = [])
    (hcall : (session.call 0).canceled = false) :
    (session.advance 0 0 (.ends outcome)).SettlesWith outcome := by
  rw [advance_ends, conclusion_of_not_canceled hcall]
  obtain ⟨calls, labels, backend, searches, gates, tasks, ready, active, watches, journal⟩ := session
  cases htasks
  cases hready
  exact ⟨1, rfl, rfl⟩

theorem settlesWith_constant (value : Value) :
    (execution backend (.constant value)).SettlesWith (.ok value) := by
  refine settlesWith_of_step rfl (settlesWith_of_step rfl ?_)
  show (Session.advance _ 0 0 (.ends (.ok value))).SettlesWith _
  exact settlesWith_of_ends rfl rfl rfl

theorem settlesWith_listing_error (failure : Failure) (rest : List Call) :
    (scene backend (ofTraceSearch search .executing phase next :: rest).toArray searches
      [.listing 0 search] (.after (.error failure)) journal).SettlesWith (.error failure) := by
  refine settlesWith_of_step rfl ?_
  rw [step_after_cons rfl rfl]
  exact settlesWith_of_ends rfl rfl rfl

theorem settlesWith_fetching_error (failure : Failure) (ids : List String) (rest : List Call) :
    (scene backend (ofTraceSearch search .executing phase next :: rest).toArray searches
      [.fetching 0 search ids] (.after (.error failure)) journal).SettlesWith (.error failure) := by
  refine settlesWith_of_step rfl ?_
  rw [step_after_cons rfl rfl]
  exact settlesWith_of_ends rfl rfl rfl

/-- Without traces the search is done. -/
theorem settlesWith_listing_nil (rest : List Call) :
    (scene backend (ofTraceSearch search .executing phase next :: rest).toArray searches
      [.listing 0 search] (.after (.ok (.ofTexts []))) journal).SettlesWith (.ok (.list [])) := by
  refine settlesWith_of_step rfl ?_
  rw [step_after_cons rfl rfl]
  exact settlesWith_of_ends rfl rfl rfl

/-- With traces the search goes on to its second phase. -/
theorem settlesWith_listing_cons
    {ids : List String} {second : Call} {outcome : Outcome}
    (hids : ids ≠ [])
    (h : ∀ journal', (scene backend
      (Array.push #[ofTraceSearch search .executing .fetching (some 2), second]
        (ofSearch (search.fetch ids) .new)) searches
      [.fetching 0 search ids] (.before 2) journal').SettlesWith outcome) :
    (scene backend #[ofTraceSearch search .executing phase next, second] searches
      [.listing 0 search] (.after (.ok (.ofTexts ids))) journal).SettlesWith outcome := by
  have hempty : ids.isEmpty = false := List.isEmpty_eq_false_iff.mpr hids
  refine settlesWith_of_step rfl ?_
  rw [step_after_cons rfl rfl, resume, Value.texts_ofTexts, fetchListed, hempty]
  exact h _

/-- The second phase ends with the assembled traces. -/
theorem settlesWith_fetching (ids : List String) (spans : List Span) (rest : List Call) :
    (scene backend (ofTraceSearch search .executing phase next :: rest).toArray searches
      [.fetching 0 search ids] (.after (.ok (.ofSpans spans))) journal).SettlesWith
      (((Trace.assemble search.criteria search.strict ids spans).mapError .badTraces).map
        .ofTraces) := by
  refine settlesWith_of_step rfl ?_
  rw [step_after_cons rfl rfl, resume, Value.spans_ofSpans, assembleFetched]
  cases Trace.assemble search.criteria search.strict ids spans with
  | error error => exact settlesWith_of_ends rfl rfl rfl
  | ok traces => exact settlesWith_of_ends rfl rfl rfl

theorem settlesWith_fetched
    (hgate : ∀ count asked, (backend count asked).gate = none)
    (search : TraceSearch)
    (ids : List String)
    (second : Call) :
    (scene backend
      (Array.push #[ofTraceSearch search .executing .fetching (some 2), second]
        (ofSearch (search.fetch ids) .new)) 1
      [.fetching 0 search ids] (.before 2) journal).SettlesWith (search.fetched backend ids) := by
  refine settlesWith_search (reply_of_gate hgate 1 (search.fetch ids)) fun state journal => ?_
  rw [TraceSearch.fetched]
  cases (backend 1 (search.fetch ids)).result with
  | error failure => exact settlesWith_fetching_error failure ids _
  | ok body =>
      show SettlesWith (scene _ _ _ _ (.after
        (((Response.spans body).map Value.ofSpans).mapError .badResponse)) _)
          ((Response.spans body).mapError .badResponse >>= fun spans =>
            (Trace.assemble search.criteria search.strict ids spans).mapError .badTraces >>=
              fun traces => pure (.ofTraces traces))
      cases Response.spans body with
      | error error => exact settlesWith_fetching_error _ ids _
      | ok spans => exact settlesWith_fetching ids spans _

/-- The execution of a trace search comes to what its phases come to. -/
theorem settlesWith_traceSearch
    (hgate : ∀ count asked, (backend count asked).gate = none)
    (search : TraceSearch) :
    (execution backend (.traceSearch search)).SettlesWith (search.outcome backend) := by
  obtain ⟨journal, hstart⟩ : ∃ journal, (execution backend (.traceSearch search)).step.step =
      scene backend (Array.push #[ofTraceSearch search .executing .aggregating (some 1)]
        (ofSearch search.listing .new)) 0 [.listing 0 search] (.before 1) journal := ⟨_, rfl⟩
  refine settlesWith_of_step rfl (settlesWith_of_step rfl ?_)
  rw [hstart]
  refine settlesWith_search (reply_of_gate hgate 0 search.listing) fun state journal => ?_
  rw [TraceSearch.outcome]
  cases (backend 0 search.listing).result with
  | error failure => exact settlesWith_listing_error failure _
  | ok body =>
      show SettlesWith (scene _ _ _ _ (.after
        (((Response.traceIds body).map Value.ofTexts).mapError .badResponse)) _)
          ((Response.traceIds body).mapError .badResponse >>= fun ids =>
            if ids.isEmpty then pure (.list []) else search.fetched backend ids)
      cases Response.traceIds body with
      | error error => exact settlesWith_listing_error _ _
      | ok ids =>
          cases ids with
          | nil => exact settlesWith_listing_nil _
          | cons id rest =>
              exact settlesWith_listing_cons (List.cons_ne_nil id rest) fun journal =>
                settlesWith_fetched hgate search (id :: rest) _

end Session
end TraceArchive
