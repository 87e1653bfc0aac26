import TraceArchive.Proofs.Session.Lifecycle

/-!
# How far the searches of a session have come

Every search that has a reply was asked of the backend, and every trace search that waits for a
search has issued it, and the ones before it, and nothing more.

* `Answered`: the backend has replied to a search.
* `stages`, `Course`: the searches that a trace search has issued, and which they are.
* `Explained`: a search that has a value has made it of what it was given.
* `concluded_of_active`: a value that is handed to a body is that of the call it waits for.
* `Recorded`, `recorded_of_reachable`: what holds of the searches of every session.
-/

set_option autoImplicit false

namespace TraceArchive

/-- The call of a search that a trace search issues. -/
def Observation.stage? (id : CallId) : Observation → Option CallId
  | .issued call stage => if call = id then some stage else none
  | _ => none

/-- The plan of a search, or of a trace search. -/
def Plan.IsSearching : Plan → Prop
  | .search _ => True
  | .traceSearch _ => True
  | _ => False

theorem TraceSearch.fetch_inj {search : TraceSearch} {ids ids' : List String} :
    search.fetch ids = search.fetch ids' ↔ ids = ids' := by
  constructor
  · intro h
    have hquery := congrArg (fun asked => asked.request.query) h
    simp only [fetch, SearchRequest.build, List.foldl_cons, List.foldl_nil, SearchRequest.add,
      Option.some.injEq, Query.terms.injEq, true_and] at hquery
    exact (List.map_inj_right fun _ _ => Json.str.inj).mp hquery
  · exact congrArg search.fetch

namespace Session

/-- The calls of the searches that a trace search has issued, the first to be issued first. -/
def stages (session : Session) (id : CallId) : List CallId :=
  (session.history.filterMap (Observation.stage? id)).reverse

/-- A search was asked of the backend, and this is the reply. -/
def Answered (session : Session) (own : CallId) (asked : Search) (reply : Reply) : Prop :=
  ∃ newer older, session.history = newer ++ .searched own asked :: older ∧
    reply = session.backend (older.countP Observation.isSearched) asked

/-- The searches that a trace search may have issued: none, the one for trace IDs, or also the one
for the spans of the IDs that the first has come to. -/
inductive Course (session : Session) (search : TraceSearch) : List CallId → Prop
  | none : Course session search []
  | listing {first : CallId}
      (hfirst : (session.call first).plan = .search search.listing) :
      Course session search [first]
  | fetching {first second : CallId} {given : Value}
      (hfirst : (session.call first).plan = .search search.listing)
      (hgiven : .concluded first (.ok given) ∈ session.history)
      (hids : given.texts ≠ [])
      (hsecond : (session.call second).plan = .search (search.fetch given.texts)) :
      Course session search [first, second]

end Session

/-- What a frame of a search stands for has happened: its reply was given, or the search that it
waits for is the last one that was issued. -/
def Frame.IsBacked (session : Session) : Frame → Prop
  | .reply own asked answer => session.Answered own asked answer
  | .listing own _ => ∃ stage, session.stages own = [stage] ∧
      (session.call own).next = some stage
  | .fetching own search ids => ∃ earlier stage, session.stages own = [earlier, stage] ∧
      (session.call own).next = some stage ∧
        (session.call stage).plan = .search (search.fetch ids)
  | _ => True

/-- What a frame of a search is given has come of what it waited for. -/
def Frame.Got (session : Session) (given : Value) : Frame → Prop
  | .reply own asked answer => session.Answered own asked answer
  | .listing own _ => ∃ stage, session.stages own = [stage] ∧
      .concluded stage (.ok given) ∈ session.history
  | .fetching own search ids => ∃ earlier stage, session.stages own = [earlier, stage] ∧
      (session.call stage).plan = .search (search.fetch ids) ∧
        .concluded stage (.ok given) ∈ session.history
  | _ => True

namespace Session

/-- A search has made its value of what was given to it. -/
def Explained (session : Session) (id : CallId) (value : Value) : Prop :=
  ∃ (frame : Frame) (given : Value), frame.call = id ∧ frame.Fits (session.call id).plan ∧
    frame.Got session given ∧ frame.Yields given value

/-- The history agrees with the stacks, and explains the values of all searches. -/
structure Recorded (session : Session) : Prop where
  searches : session.searches = session.history.countP Observation.isSearched
  untouched : ∀ id, (session.call id).state = .new → session.stages id = []
  backed : ∀ task, ∀ frame ∈ (session.task task).stack, frame.IsBacked session
  course : ∀ id search, (session.call id).plan = .traceSearch search →
    session.Course search (session.stages id)
  explained : ∀ id value, .concluded id (.ok value) ∈ session.history →
    (session.call id).plan.IsSearching → session.Explained id value

/-! ### What later moves leave as it is -/

section Later

variable {own : CallId} {told : List Observation} {session after : Session}

theorem Extends.mem_history
    (h : Extends own told session after)
    {entry : Observation}
    (hentry : entry ∈ session.history) :
    entry ∈ after.history := by
  rw [h.history]
  exact List.mem_append_right told hentry

theorem Extends.answered
    (h : Extends own told session after)
    {id : CallId}
    {asked : Search}
    {reply : Reply}
    (hanswered : session.Answered id asked reply) :
    after.Answered id asked reply := by
  obtain ⟨newer, older, hhistory, hreply⟩ := hanswered
  refine ⟨told ++ newer, older, ?_, ?_⟩
  · rw [h.history, hhistory, List.append_assoc]
  · rw [h.backend]
    exact hreply

theorem Extends.plan_eq_search
    (h : Extends own told session after)
    {id : CallId}
    {asked : Search}
    (hplan : (session.call id).plan = .search asked) :
    (after.call id).plan = .search asked := by
  have hid : id < session.calls.size :=
    lt_size_of_plan_ne (hplan ▸ search_ne_default asked)
  exact (h.plan id hid).trans hplan

theorem Extends.course
    (h : Extends own told session after)
    {search : TraceSearch}
    {stages : List CallId}
    (hcourse : session.Course search stages) :
    after.Course search stages := by
  cases hcourse with
  | none => exact .none
  | listing hfirst => exact .listing (h.plan_eq_search hfirst)
  | fetching hfirst hgiven hids hsecond =>
      exact .fetching (h.plan_eq_search hfirst) (h.mem_history hgiven) hids
        (h.plan_eq_search hsecond)

theorem stages_of_history_eq
    (h : after.history = told ++ session.history)
    {id : CallId}
    (htold : ∀ entry ∈ told, entry.stage? id = none) :
    after.stages id = session.stages id := by
  have hnone : told.filterMap (Observation.stage? id) = [] :=
    List.filterMap_eq_nil_iff.mpr htold
  rw [stages, h, List.filterMap_append, hnone, List.nil_append, stages]

theorem Extends.stages_of_ne
    (h : Extends own told session after)
    {id : CallId}
    (hne : id ≠ own) :
    after.stages id = session.stages id := by
  refine stages_of_history_eq h.history fun entry hentry => ?_
  have hsubject := h.subject entry hentry
  cases entry with
  | issued call stage =>
      cases hsubject
      exact if_neg (Ne.symm hne)
  | _ => rfl

theorem Extends.isBacked
    (h : Extends own told session after)
    {frame : Frame}
    (hstages : after.stages frame.call = session.stages frame.call)
    (hnext : (after.call frame.call).next = (session.call frame.call).next)
    (hbacked : frame.IsBacked session) :
    frame.IsBacked after := by
  cases frame with
  | reply id asked reply => exact h.answered hbacked
  | listing id search =>
      obtain ⟨stage, hstage, hlast⟩ := hbacked
      exact ⟨stage, hstages.trans hstage, hnext.trans hlast⟩
  | fetching id search ids =>
      obtain ⟨earlier, stage, hstage, hlast, hplan⟩ := hbacked
      exact ⟨earlier, stage, hstages.trans hstage, hnext.trans hlast, h.plan_eq_search hplan⟩
  | _ => trivial

theorem Extends.explained
    (h : Extends own told session after)
    {id : CallId}
    {value : Value}
    (hplan : (after.call id).plan = (session.call id).plan)
    (hstages : after.stages id = session.stages id)
    (hexplained : session.Explained id value) :
    after.Explained id value := by
  obtain ⟨frame, given, rfl, hfits, hgot, hyields⟩ := hexplained
  refine ⟨frame, given, rfl, hplan ▸ hfits, ?_, hyields⟩
  cases frame with
  | reply id asked reply => exact h.answered hgot
  | listing id search =>
      obtain ⟨stage, hstage, hgiven⟩ := hgot
      exact ⟨stage, hstages.trans hstage, h.mem_history hgiven⟩
  | fetching id search ids =>
      obtain ⟨earlier, stage, hstage, hasked, hgiven⟩ := hgot
      exact ⟨earlier, stage, hstages.trans hstage, h.plan_eq_search hasked, h.mem_history hgiven⟩
  | _ => trivial

/-- Only a call in a final state has a conclusion. -/
theorem Tallied.isFinal_of_concluded
    {id : CallId}
    {outcome : Outcome}
    (h : session.Tallied id)
    (hmem : .concluded id outcome ∈ session.history) :
    (session.call id).state.isFinal = true :=
  h.isFinal_of_pos (List.countP_pos_iff.mpr ⟨_, hmem, decide_eq_true rfl⟩)

theorem lt_size_of_isFinal
    {id : CallId}
    (h : (session.call id).state.isFinal = true) :
    id < session.calls.size := by
  by_cases hid : id < session.calls.size
  · exact hid
  · rw [call, state_of_size_le (Nat.not_lt.mp hid)] at h
    cases h

/-- A move keeps the record of a session if it keeps that of the one call that it is about. -/
theorem Recorded.of_extends
    (h : session.Recorded)
    (htallied : ∀ id, session.Tallied id)
    (hextends : Extends own told session after)
    (hframes : ∀ task, ∀ frame ∈ (after.task task).stack, frame.IsBacked after ∨
      frame.call < session.calls.size ∧ frame.call ≠ own ∧ frame.IsBacked session)
    (hnew : (after.call own).state = .new → after.stages own = [])
    (hcourse : ∀ search, (after.call own).plan = .traceSearch search →
      after.Course search (after.stages own))
    (hexplained : ∀ value, .concluded own (.ok value) ∈ after.history →
      (after.call own).plan.IsSearching → after.Explained own value) :
    after.Recorded := by
  refine ⟨?_, ?_, ?_, ?_, ?_⟩
  · rw [hextends.searches, hextends.history, List.countP_append, h.searches]
  · intro id hstate
    by_cases hne : id = own
    · exact hne ▸ hnew (hne ▸ hstate)
    · rw [hextends.stages_of_ne hne]
      rcases hextends.state id hne with hsame | ⟨_, hcanceled⟩
      · exact h.untouched id (hsame.symm.trans hstate)
      · exact absurd (hcanceled.symm.trans hstate) (by decide)
  · intro task frame hframe
    rcases hframes task frame hframe with hbacked | ⟨hlt, hne, hbacked⟩
    · exact hbacked
    · exact hextends.isBacked (hextends.stages_of_ne hne) (hextends.next frame.call hlt hne) hbacked
  · intro id search hplan
    by_cases hne : id = own
    · exact hne ▸ hcourse search (hne ▸ hplan)
    · rw [hextends.stages_of_ne hne]
      by_cases hid : id < session.calls.size
      · exact hextends.course (h.course id search ((hextends.plan id hid).symm.trans hplan))
      · rw [h.untouched id (state_of_size_le (Nat.not_lt.mp hid))]
        exact .none
  · intro id value hmem hsearching
    by_cases hne : id = own
    · exact hne ▸ hexplained value (hne ▸ hmem) (hne ▸ hsearching)
    · rw [hextends.history] at hmem
      rcases List.mem_append.mp hmem with htold | hold
      · exact absurd (Option.some.inj (hextends.subject _ htold)) hne
      · have hfinal := (htallied id).isFinal_of_concluded hold
        have hplan := hextends.plan id (lt_size_of_isFinal hfinal)
        exact hextends.explained hplan (hextends.stages_of_ne hne)
          (h.explained id value hold (hplan ▸ hsearching))

end Later

/-! ### Pieces of bodies -/

end Session

/-- What a body has come to agrees with the history: the frame that it leaves, or the value that it
ends with, if it is that of a search. -/
def Progress.IsBacked (own : CallId) (session : Session) : Progress → Prop
  | .ends (.ok value) => (session.call own).plan.IsSearching → session.Explained own value
  | .ends (.error _) => True
  | .executes _ frame => frame.IsBacked session
  | .waits _ frame => frame.IsBacked session

namespace Session

/-- A piece of a body keeps the record of its own call. -/
structure Records (own : CallId) (result : Progress × Session) : Prop where
  backed : result.1.IsBacked own result.2
  course : ∀ search, (result.2.call own).plan = .traceSearch search →
    result.2.Course search (result.2.stages own)

/-- There is nothing to record of bodies other than those of searches. -/
theorem records_of_not_searching
    {own : CallId}
    {session : Session}
    {result : Progress × Session}
    (hpiece : Piece own session result)
    (hown : own < session.calls.size)
    (hplan : ¬ (session.call own).plan.IsSearching) :
    Records own result := by
  have hsame : (result.2.call own).plan = (session.call own).plan := hpiece.grows.plan own hown
  rw [← hsame] at hplan
  have hframe : ∀ frame : Frame, frame.Fits (result.2.call own).plan →
      frame.IsBacked result.2 := by
    intro frame hfits
    cases frame with
    | reply id asked reply => exact absurd (hfits ▸ trivial) hplan
    | listing id search => exact absurd (hfits ▸ trivial) hplan
    | fetching id search ids => exact absurd (hfits ▸ trivial) hplan
    | _ => trivial
  have hfits := hpiece.fits
  refine ⟨?_, fun search hsearch => absurd (hsearch ▸ trivial) hplan⟩
  cases hprogress : result.1 with
  | ends outcome =>
      cases outcome with
      | ok value => exact fun hsearching => absurd hsearching hplan
      | error failure => trivial
  | executes next frame =>
      rw [hprogress] at hfits
      exact hframe frame hfits.2.1
  | waits gate frame =>
      rw [hprogress] at hfits
      exact hframe frame hfits.2.1

theorem stages_of_silent
    {session after : Session}
    (h : Silent session after)
    (id : CallId) :
    after.stages id = session.stages id := by
  rw [stages, h.history, stages]

theorem stages_of_issued
    {session after : Session}
    {own stage : CallId}
    (h : after.history = .issued own stage :: session.history) :
    after.stages own = session.stages own ++ [stage] := by
  rw [stages, h, List.filterMap_cons, stages]
  simp [Observation.stage?]

theorem GivesUp.records
    {own : CallId}
    {session : Session}
    {result : Progress × Session}
    (h : GivesUp session result)
    (hpiece : Piece own session result)
    (hcourse : ∀ search, (result.2.call own).plan = .traceSearch search →
      session.Course search (session.stages own)) :
    Records own result := by
  obtain ⟨failure, hfailed⟩ := h.failed
  refine ⟨hfailed ▸ trivial, fun search hplan => ?_⟩
  rw [stages_of_silent h.toSilent]
  exact (hpiece.extends (h.toSilent.tells own)).course (hcourse search hplan)

theorem records_begin
    {session : Session}
    {own : CallId}
    (hpiece : Piece own session (session.begin own))
    (hown : own < session.calls.size)
    (hsearches : session.searches = session.history.countP Observation.isSearched)
    (hstages : session.stages own = []) :
    Records own (session.begin own) := by
  have hsame : ((session.begin own).2.call own).plan = (session.call own).plan :=
    hpiece.grows.plan own hown
  cases hplan : (session.call own).plan with
  | search asked =>
      rw [hplan] at hsame
      refine ⟨?_, fun search hsearch => by rw [hsame] at hsearch; cases hsearch⟩
      rw [begin_of_plan_search hplan]
      exact ⟨[], session.history, history_note_of_subject rfl _, by rw [← hsearches]; rfl⟩
  | traceSearch search =>
      rw [hplan] at hsame
      rcases begin_of_plan_traceSearch hown hplan with hgives | hissues
      · exact hgives.records hpiece fun _ _ => hstages ▸ .none
      · have hissued := stages_of_issued hissues.history
        rw [hstages, List.nil_append] at hissued
        refine ⟨?_, fun search' hsearch => ?_⟩
        · rw [hissues.progress]
          exact ⟨session.calls.size, hissued, hissues.next⟩
        · rw [hsame] at hsearch
          cases hsearch
          exact hissued ▸ .listing hissues.plan
  | constant value => exact records_of_not_searching hpiece hown (hplan ▸ id)
  | recording leaf => exact records_of_not_searching hpiece hown (hplan ▸ id)
  | mapped first mapper => exact records_of_not_searching hpiece hown (hplan ▸ id)
  | flatMapped first mapper => exact records_of_not_searching hpiece hown (hplan ▸ id)

end Session

/-- A frame that is given the value of the call that it waits for got what it waited for. -/
theorem Frame.IsBacked.got
    {session : Session}
    {frame : Frame}
    {given : Value}
    (h : frame.IsBacked session)
    (hgiven : ∀ stage, frame.awaits session.calls = some stage →
      .concluded stage (.ok given) ∈ session.history) :
    frame.Got session given := by
  cases frame with
  | reply id asked reply => exact h
  | listing id search =>
      obtain ⟨stage, hstage, hnext⟩ := h
      exact ⟨stage, hstage, hgiven stage hnext⟩
  | fetching id search ids =>
      obtain ⟨earlier, stage, hstage, hnext, hplan⟩ := h
      exact ⟨earlier, stage, hstage, hplan, hgiven stage hnext⟩
  | _ => trivial

namespace Session

/-- A body that ends silently explains its value. -/
theorem Silent.records
    {session : Session}
    {frame : Frame}
    {given : Value}
    (h : Silent session (session.resume frame (.ok given)).2)
    (hends : ∃ outcome, (session.resume frame (.ok given)).1 = .ends outcome)
    (hpiece : Piece frame.call session (session.resume frame (.ok given)))
    (hown : frame.call < session.calls.size)
    (hfits : frame.Fits (session.call frame.call).plan)
    (hgot : frame.Got session given)
    (hcourse : ∀ search, (session.call frame.call).plan = .traceSearch search →
      session.Course search (session.stages frame.call)) :
    Records frame.call (session.resume frame (.ok given)) := by
  have hsame : ((session.resume frame (.ok given)).2.call frame.call).plan =
      (session.call frame.call).plan := hpiece.grows.plan frame.call hown
  have hextends := hpiece.extends (h.tells frame.call)
  refine ⟨?_, fun search hplan => ?_⟩
  · obtain ⟨outcome, hprogress⟩ := hends
    rw [hprogress]
    cases outcome with
    | error failure => trivial
    | ok value =>
        intro _
        refine hextends.explained hsame (stages_of_silent h _) ?_
        exact ⟨frame, given, rfl, hfits, hgot, yields_of_resume hprogress⟩
  · rw [stages_of_silent h]
    exact hextends.course (hcourse search (hsame ▸ hplan))

/-- A trace search that is given trace IDs goes on in its course. -/
theorem records_resume_listing
    {session : Session}
    {own : CallId}
    {search : TraceSearch}
    {given : Value}
    (hpiece : Piece own session (session.resume (.listing own search) (.ok given)))
    (hown : own < session.calls.size)
    (hids : given.texts ≠ [])
    (hplan : (session.call own).plan = .traceSearch search)
    (hgot : Frame.Got session given (.listing own search))
    (hcourse : session.Course search (session.stages own)) :
    Records own (session.resume (.listing own search) (.ok given)) := by
  have hafter := (hpiece.grows.plan own hown).trans hplan
  have hsame : ∀ search', ((session.resume (.listing own search) (.ok given)).2.call own).plan =
      .traceSearch search' → search' = search :=
    fun search' hsearch => (Plan.traceSearch.inj (hafter.symm.trans hsearch)).symm
  rcases resume_listing hown search hids with hgives | hissues
  · exact hgives.records hpiece fun search' hsearch => hsame search' hsearch ▸ hcourse
  · obtain ⟨first, hfirst, hconcluded⟩ := hgot
    have hissued := stages_of_issued hissues.history
    rw [hfirst, List.singleton_append] at hissued
    refine ⟨?_, fun search' hsearch => ?_⟩
    · rw [hissues.progress]
      exact ⟨first, session.calls.size, hissued, hissues.next, hissues.plan⟩
    · have hextends := hpiece.extends hissues.tells
      rw [hsame search' hsearch, hissued]
      rw [hfirst] at hcourse
      cases hcourse with
      | listing hlisting =>
          exact .fetching (hextends.plan_eq_search hlisting) (hextends.mem_history hconcluded) hids
            hissues.plan

theorem records_resume
    {session : Session}
    {frame : Frame}
    {outcome : Outcome}
    (hpiece : Piece frame.call session (session.resume frame outcome))
    (hown : frame.call < session.calls.size)
    (hfits : frame.Fits (session.call frame.call).plan)
    (hbacked : frame.IsBacked session)
    (hcourse : ∀ search, (session.call frame.call).plan = .traceSearch search →
      session.Course search (session.stages frame.call))
    (hgiven : ∀ given stage, outcome = .ok given → frame.awaits session.calls = some stage →
      .concluded stage (.ok given) ∈ session.history) :
    Records frame.call (session.resume frame outcome) := by
  have hsame : ((session.resume frame outcome).2.call frame.call).plan =
      (session.call frame.call).plan := hpiece.grows.plan frame.call hown
  cases outcome with
  | error failure =>
      obtain ⟨hends, hsilent⟩ := resume_error session frame failure
      have hgives : GivesUp session (session.resume frame (.error failure)) :=
        ⟨hsilent, failure, hends⟩
      exact hgives.records hpiece fun search hplan => hcourse search (hsame ▸ hplan)
  | ok given =>
      have hgot := hbacked.got fun stage => hgiven given stage rfl
      cases frame with
      | reply own asked reply =>
          exact (Silent.refl session).records ⟨_, rfl⟩ hpiece hown hfits hgot hcourse
      | fetching own search ids =>
          exact (silent_assembleFetched session own search ids given.spans).records
            (ends_resume_fetching session own search ids given) hpiece hown hfits hgot hcourse
      | listing own search =>
          by_cases hempty : given.texts = []
          · have hsilent : Silent session (session.resume (.listing own search) (.ok given)).2 :=
              silent_resume fun _ _ _ => hempty
            exact hsilent.records (ends_resume_listing hempty session own search) hpiece hown hfits
              hgot hcourse
          · exact records_resume_listing hpiece hown hempty hfits hgot (hcourse search hfits)
      | leaf own recording => exact records_of_not_searching hpiece hown (hfits ▸ id)
      | mapped own mapper =>
          obtain ⟨first, hplan⟩ := hfits
          exact records_of_not_searching hpiece hown (hplan ▸ id)
      | first own mapper =>
          obtain ⟨first, hplan⟩ := hfits
          exact records_of_not_searching hpiece hown (hplan ▸ id)
      | next own =>
          obtain ⟨first, mapper, hplan⟩ := hfits
          exact records_of_not_searching hpiece hown (hplan ▸ id)

/-! ### Moves -/

/-- After a piece of a body, the stacks are as before it but for the frame that it may have left. -/
theorem mem_stack_advance
    {session : Session}
    {id other : TaskId}
    {own : CallId}
    {progress : Progress}
    {frame : Frame}
    (hid : id < session.tasks.size)
    (hframe : frame ∈ ((session.advance id own progress).task other).stack) :
    frame ∈ (session.task other).stack ∨
      (∃ next, progress = .executes next frame) ∨ ∃ gate, progress = .waits gate frame := by
  have hpushing : ∀ pushed, frame ∈ ((session.pushing id pushed).task other).stack →
      frame ∈ (session.task other).stack ∨ frame = pushed := by
    intro pushed hmem
    rw [pushing, task_updateTask hid] at hmem
    split at hmem
    · exact (List.mem_cons.mp hmem).symm
    · exact Or.inl hmem
  cases progress with
  | ends outcome => exact Or.inl hframe
  | executes next pushed =>
      rcases hpushing pushed hframe with hold | rfl
      · exact Or.inl hold
      · exact Or.inr (Or.inl ⟨next, rfl⟩)
  | waits gate pushed =>
      have hmem : frame ∈ ((session.pushing id pushed).task other).stack := by
        rcases advance_waits session id own gate pushed with heq | ⟨place, heq⟩
        · rw [heq] at hframe
          exact hframe
        · rw [heq] at hframe
          exact stack_setState (session.pushing id pushed) id _ other ▸ hframe
      rcases hpushing pushed hmem with hold | rfl
      · exact Or.inl hold
      · exact Or.inr (Or.inr ⟨gate, rfl⟩)

/-- The call whose body has just gone on is not new. -/
theorem state_advance_ne_new
    {session : Session}
    {id : TaskId}
    {own : CallId}
    (h : session.Engaged id own)
    (progress : Progress) :
    ((session.advance id own progress).call own).state ≠ .new := by
  intro hnew
  have hleads := (ages_advance h.call h.executing id progress own).leads
  rw [h.executing, hnew] at hleads
  exact CallState.not_leads_new (by decide) hleads

/-- What a body ends with is its own value, or one that it was not canceled meanwhile. -/
theorem eq_of_conclusion_eq_ok
    {call : Call}
    {outcome : Outcome}
    {value : Value}
    (h : (conclusion call outcome).2 = .ok value) :
    outcome = .ok value ∧ call.canceled = false := by
  cases outcome with
  | ok given =>
      rw [conclusion] at h
      split at h
      · cases h
      · rename_i hflag
        exact ⟨h, by simpa using hflag⟩
  | error failure => cases failure <;> cases h

/-- The end of a piece issues nothing. -/
theorem stages_advance
    (session : Session)
    (id : TaskId)
    (own : CallId)
    (progress : Progress)
    (other : CallId) :
    (session.advance id own progress).stages other = session.stages other := by
  refine stages_of_history_eq (extends_advance session id own progress).history ?_
  intro entry hentry
  cases progress with
  | ends outcome =>
      cases List.mem_singleton.mp hentry
      rfl
  | executes next frame => cases hentry
  | waits gate frame => cases hentry

/-- A piece of a body that keeps the record of its own call keeps that of the session. -/
theorem Recorded.advance
    {session middle : Session}
    {id : TaskId}
    {own : CallId}
    {told : List Observation}
    {progress : Progress}
    (h : session.Recorded)
    (hsound : session.Sound)
    (htallied : ∀ other, session.Tallied other)
    (hextends : Extends own told session middle)
    (hengaged : middle.Engaged id own)
    (hown : middle.Tallied own)
    (hfits : progress.Fits own middle.calls)
    (hrecords : Records own (progress, middle))
    (hframes : ∀ task, ∀ frame ∈ (middle.task task).stack, frame ∈ (session.task task).stack) :
    (middle.advance id own progress).Recorded := by
  have hlast := extends_advance middle id own progress
  have hstages := stages_advance middle id own progress own
  have hplan := hlast.plan own hengaged.call
  refine h.of_extends htallied (hextends.trans hlast) ?_ ?_ ?_ ?_
  · intro task frame hframe
    rcases mem_stack_advance hengaged.task hframe with hold | ⟨next, rfl⟩ | ⟨gate, rfl⟩
    · have hmem := hframes task frame hold
      exact Or.inr ⟨((hsound.steady.framesHold task).holds frame hmem).1,
        hengaged.alone task frame hold, h.backed task frame hmem⟩
    · left
      obtain ⟨rfl, _⟩ := hfits
      exact hlast.isBacked hstages rfl hrecords.backed
    · left
      obtain ⟨rfl, _⟩ := hfits
      refine hlast.isBacked hstages ?_ hrecords.backed
      obtain ⟨_, _, _, heq⟩ := exists_advance_waits middle id frame.call gate frame
      rw [heq]
      rfl
  · exact fun hnew => absurd hnew (state_advance_ne_new hengaged progress)
  · intro search hsearch
    rw [hstages]
    exact hlast.course (hrecords.course search (hplan ▸ hsearch))
  · intro value hmem hsearching
    rw [hlast.history] at hmem
    rcases List.mem_append.mp hmem with hclosing | hold
    · cases progress with
      | ends outcome =>
          have hconcluded := List.mem_singleton.mp hclosing
          simp only [Observation.concluded.injEq, true_and] at hconcluded
          obtain ⟨rfl, _⟩ := eq_of_conclusion_eq_ok hconcluded.symm
          exact hlast.explained hplan hstages (hrecords.backed (hplan ▸ hsearching))
      | executes next frame => cases hclosing
      | waits gate frame => cases hclosing
    · have hfinal := hown.isFinal_of_concluded hold
      rw [hengaged.executing] at hfinal
      cases hfinal

theorem Recorded.turns
    {session after : Session}
    (h : session.Recorded)
    (htallied : ∀ id, session.Tallied id)
    (hsound : session.Sound)
    (hturns : Turns session after) :
    after.Recorded := by
  -- No call has this number, neither before nor after the move.
  have hextends := hturns.extends after.calls.size
  have hstate : (after.call after.calls.size).state = .new := state_of_size_le (Nat.le_refl _)
  have hplan : (after.call after.calls.size).plan = .emptyList := by
    rw [call, Calls.get_eq_default (Nat.le_refl _)]
    rfl
  have hstages : after.stages after.calls.size = session.stages after.calls.size :=
    stages_of_history_eq hextends.history (by simp)
  refine h.of_extends htallied hextends ?_ ?_ ?_ ?_
  · intro task frame hframe
    rcases hturns.framesKept task with hsame | hnil
    · rw [hsame] at hframe
      have hlt := ((hsound.steady.framesHold task).holds frame hframe).1
      exact Or.inr ⟨hlt, Nat.ne_of_lt (Nat.lt_of_lt_of_le hlt hextends.size),
        h.backed task frame hframe⟩
    · rw [hnil] at hframe
      exact absurd hframe List.not_mem_nil
  · intro _
    rw [hstages]
    exact h.untouched _ (state_of_size_le hextends.size)
  · intro search hsearch
    rw [hplan] at hsearch
    cases hsearch
  · intro value _ hsearching
    rw [hplan] at hsearching
    exact absurd hsearching id

/-- A body hands its value to the frame that waits for its call. -/
theorem concluded_advance
    {session : Session}
    {id other : TaskId}
    {own : CallId}
    {progress : Progress}
    {given : Value}
    {frame : Frame}
    {rest : List Frame}
    {stage : CallId}
    (hengaged : session.Engaged id own)
    (hfits : progress.Fits own session.calls)
    (hactive : (session.advance id own progress).active = some (other, .after (.ok given)))
    (hstack : ((session.advance id own progress).task other).stack = frame :: rest)
    (hawaits : frame.awaits (session.advance id own progress).calls = some stage) :
    .concluded stage (.ok given) ∈ (session.advance id own progress).history := by
  cases progress with
  | ends outcome =>
      rw [advance_ends] at hactive hstack hawaits ⊢
      have hspares := Calls.spares_setState session.calls own
        (conclusion (session.call own) outcome).1
      obtain ⟨rfl, hconcluded⟩ := Prod.mk.inj (Option.some.inj hactive)
      replace hstack : (session.task id).stack = frame :: rest := hstack
      have hframe : frame ∈ (session.task id).stack := hstack ▸ List.mem_cons_self
      have hserves := hengaged.serves
      rw [hstack] at hserves
      have hsame : frame.awaits (session.closing own outcome).calls = frame.awaits session.calls :=
        Calls.awaits_eq_of_spares hspares ((hengaged.steady.framesHold id).holds frame hframe).1
          (hengaged.alone id frame hframe)
      cases (hserves.1.symm.trans hsame.symm).trans hawaits
      rw [← Point.after.inj hconcluded]
      exact (mem_history_iff rfl).mpr List.mem_cons_self
  | executes next pushed =>
      rw [advance_executes] at hactive
      cases hactive
  | waits gate pushed =>
      have hleaf : frame.IsLeaf := by
        rcases advance_waits session id own gate pushed with heq | ⟨place, heq⟩
        · rw [heq] at hactive hstack
          obtain ⟨rfl, _⟩ := Prod.mk.inj (Option.some.inj hactive)
          have hpushed := congrArg Task.stack (hengaged.pushing hfits.1 hfits.2.1).2.2
          obtain ⟨rfl, _⟩ := List.cons.inj (hpushed.symm.trans hstack)
          exact hfits.2.2
        · rw [heq] at hactive
          cases hactive
      rw [hleaf.awaits] at hawaits
      cases hawaits

/-- A value that is handed to a body is that of the call that the body waits for. -/
theorem concluded_of_move
    {session after : Session}
    (h : session.Sound)
    (hmove : Move session after)
    {id : TaskId}
    {given : Value}
    {frame : Frame}
    {rest : List Frame}
    {stage : CallId}
    (hactive : after.active = some (id, .after (.ok given)))
    (hstack : (after.task id).stack = frame :: rest)
    (hawaits : frame.awaits after.calls = some stage) :
    .concluded stage (.ok given) ∈ after.history := by
  rcases move_cases h hmove with hturns | ⟨task, own, hbefore, hstate, _, rfl⟩ |
    ⟨task, outcome, above, below, hbefore, habove, rfl⟩
  · obtain ⟨top, others, htop, hleaf⟩ := hturns.value id given hactive
    obtain ⟨rfl, _⟩ := List.cons.inj (htop.symm.trans hstack)
    rw [hleaf.awaits] at hawaits
    cases hawaits
  · have hpiece := piece_opening h hbefore hstate
    exact concluded_advance ((engaged_opening h hbefore hstate).of_piece hpiece) hpiece.fits
      hactive hstack hawaits
  · have hpiece := piece_reopening h hbefore habove
    exact concluded_advance ((engaged_reopening h hbefore habove).of_piece hpiece) hpiece.fits
      hactive hstack hawaits

theorem concluded_of_active
    {session : Session}
    (h : session.Reachable)
    {id : TaskId}
    {given : Value}
    {frame : Frame}
    {rest : List Frame}
    {stage : CallId}
    (hactive : session.active = some (id, .after (.ok given)))
    (hstack : (session.task id).stack = frame :: rest)
    (hawaits : frame.awaits session.calls = some stage) :
    .concluded stage (.ok given) ∈ session.history := by
  obtain ⟨backend, hrun⟩ := h
  cases hrun with
  | refl => cases hactive
  | tail hearlier hlast =>
      exact concluded_of_move (sound_of_reachable ⟨backend, hearlier⟩) hlast hactive hstack hawaits

theorem stages_opening (session : Session) (own other : CallId) :
    (session.opening own).stages other = session.stages other :=
  stages_of_history_eq (extends_opening session own).history (by simp [Observation.stage?])

/-- A body that begins keeps the record. -/
theorem Recorded.opening
    {session : Session}
    {id : TaskId}
    {own : CallId}
    (h : session.Recorded)
    (hsound : session.Sound)
    (htallied : ∀ other, session.Tallied other)
    (hactive : session.active = some (id, .before own))
    (hstate : (session.call own).state = .new) :
    (((session.opening own).begin own).2.advance id own
      ((session.opening own).begin own).1).Recorded := by
  have hengaged := engaged_opening hsound hactive hstate
  have hpiece := piece_opening hsound hactive hstate
  have hopening := extends_opening session own
  have hown := (hsound.standing id own hactive).1
  obtain ⟨told, htells, _⟩ := tells_begin hengaged.call
  have hstages : (session.opening own).stages own = [] :=
    (stages_opening session own own).trans (h.untouched own hstate)
  have hsearches : (session.opening own).searches =
      (session.opening own).history.countP Observation.isSearched := by
    rw [hopening.searches, hopening.history, List.countP_append, h.searches]
  have hrecords := records_begin hpiece hengaged.call hsearches hstages
  have htally := ((ages_opening hown hstate own).trans (hpiece.ages htells own)).tallied
    (htallied own)
  refine h.advance hsound htallied (hopening.trans (hpiece.extends htells))
    (hengaged.of_piece hpiece) htally hpiece.fits hrecords ?_
  intro task frame hframe
  rwa [task_eq_of_tasks_eq hpiece.keeps.tasks] at hframe

/-- A body that goes on keeps the record. -/
theorem Recorded.reopening
    {session : Session}
    {id : TaskId}
    {outcome : Outcome}
    {frame : Frame}
    {rest : List Frame}
    (h : session.Recorded)
    (hreachable : session.Reachable)
    (hactive : session.active = some (id, .after outcome))
    (hstack : (session.task id).stack = frame :: rest) :
    (((session.reopening id rest).resume frame outcome).2.advance id frame.call
      ((session.reopening id rest).resume frame outcome).1).Recorded := by
  have hsound := sound_of_reachable hreachable
  have htallied := tallied_of_reachable hreachable
  have hengaged := engaged_reopening hsound hactive hstack
  have hpiece := piece_reopening hsound hactive hstack
  have hreopening := extends_reopening session id rest frame.call
  have hframe : frame ∈ (session.task id).stack := hstack ▸ List.mem_cons_self
  obtain ⟨told, htells, _⟩ := tells_resume hengaged.call outcome
  have hrecords := records_resume hpiece hengaged.call (hsound.steady.fits hstack)
    (hreopening.isBacked rfl rfl (h.backed id frame hframe))
    (fun search hplan => hreopening.course (h.course frame.call search hplan))
    (fun given stage hgiven hawaits =>
      concluded_of_active hreachable (hgiven ▸ hactive) hstack hawaits)
  have hages : Ages session (session.reopening id rest) frame.call :=
    hreopening.ages_of_not_told (Or.inl rfl) (by simp)
  refine h.advance hsound htallied (hreopening.trans (hpiece.extends htells))
    (hengaged.of_piece hpiece) ((hages.trans (hpiece.ages htells _)).tallied (htallied _))
    hpiece.fits hrecords ?_
  intro task other hother
  rw [task_eq_of_tasks_eq hpiece.keeps.tasks, task_reopening (hsound.running id _ hactive).1]
    at hother
  split at hother
  · rename_i hsame
    exact hsame ▸ hstack ▸ List.mem_cons_of_mem frame hother
  · exact hother

theorem recorded_start (backend : Backend) : (start backend).Recorded := by
  refine ⟨rfl, fun _ _ => rfl, ?_, ?_, ?_⟩
  · intro id frame hframe
    have hnil : (start backend).task id = default := by simp [task, start]
    rw [hnil] at hframe
    exact absurd hframe List.not_mem_nil
  · exact fun id search _ => .none
  · exact fun id value hmem => absurd hmem List.not_mem_nil

/-- The searches of every session agree with its history. -/
theorem recorded_of_reachable
    {session : Session}
    (h : session.Reachable) :
    session.Recorded := by
  have hboth : session.Reachable ∧ session.Recorded := by
    refine h.induct (motive := fun session => session.Reachable ∧ session.Recorded)
      (fun backend => ⟨⟨backend, .refl⟩, recorded_start backend⟩) ?_
    rintro session after ⟨hreachable, hrecorded⟩ hmove
    refine ⟨hreachable.of_move hmove, ?_⟩
    have hsound := sound_of_reachable hreachable
    have htallied := tallied_of_reachable hreachable
    rcases move_cases hsound hmove with hturns | ⟨task, own, hactive, hstate, _, rfl⟩ |
      ⟨task, outcome, frame, rest, hactive, hstack, rfl⟩
    · exact hrecorded.turns htallied hsound hturns
    · exact hrecorded.opening hsound htallied hactive hstate
    · exact hrecorded.reopening hreachable hactive hstack
  exact hboth.2

end Session
end TraceArchive
