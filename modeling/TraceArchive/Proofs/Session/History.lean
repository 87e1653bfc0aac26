import TraceArchive.Proofs.Session.Turns

/-!
# The history of a session

The history is what the journal holds of the bodies of calls: when each begins and ends, which
searches a trace search issues, and what is asked of the backend.

* `Silent`, `Issues`: a piece of a body adds nothing to the history, or has issued a search.
* `begin_of_plan_search`, `begin_of_plan_traceSearch`, `silent_begin`: the first piece of a body.
* `resume_error`, `resume_listing`, `silent_resume`: a later piece.
* `yields_of_resume`: what a body that ends with a value has made of the one that it was given.
* `Tells`, `tells_begin`, `tells_resume`: what pieces of bodies tell of searching.
-/

set_option autoImplicit false

namespace TraceArchive

/-- The call whose body an observation is about, if it is about one. -/
def Observation.subject : Observation → Option CallId
  | .began call => some call
  | .concluded call _ => some call
  | .issued call _ => some call
  | .searched call _ => some call
  | _ => none

namespace Session

/-- What was observed of the bodies of calls, the latest first. -/
def history (session : Session) : List Observation :=
  session.journal.filter fun entry => entry.subject.isSome

theorem mem_history_iff
    {session : Session}
    {entry : Observation}
    {own : CallId}
    (h : entry.subject = some own) :
    entry ∈ session.history ↔ entry ∈ session.journal := by
  simp [history, h]

theorem history_note_of_subject
    {entry : Observation}
    {own : CallId}
    (h : entry.subject = some own)
    (session : Session) :
    (session.note entry).history = entry :: session.history := by
  simp [history, note, h]

theorem history_note_of_none
    {entry : Observation}
    (h : entry.subject = none)
    (session : Session) :
    (session.note entry).history = session.history := by
  simp [history, note, h]

theorem history_congr
    {session after : Session}
    (h : after.journal = session.journal) :
    after.history = session.history := by
  rw [history, history, h]

/-! ### Silence -/

/-- Nothing was added to the history, and nothing was asked of the backend. -/
structure Silent (session after : Session) : Prop where
  history : after.history = session.history
  searches : after.searches = session.searches

theorem Silent.refl (session : Session) : Silent session session :=
  ⟨rfl, rfl⟩

theorem Silent.trans
    {session middle after : Session}
    (h : Silent session middle)
    (h' : Silent middle after) :
    Silent session after :=
  ⟨h'.history.trans h.history, h'.searches.trans h.searches⟩

theorem silent_note
    {entry : Observation}
    (h : entry.subject = none)
    (session : Session) :
    Silent session (session.note entry) :=
  ⟨history_note_of_none h session, rfl⟩

theorem tolerates_silent : Tolerates Silent :=
  ⟨Silent.refl, Silent.trans, fun _ _ => ⟨rfl, rfl⟩, fun _ h => ⟨h.history, h.searches⟩,
    fun session _ => silent_note rfl session, fun _ _ _ => ⟨rfl, rfl⟩⟩

theorem silent_cancelAll (labels : List String) (session : Session) :
    Silent session (cancelAll labels session).2 :=
  tolerates_silent.cancelAll labels session

theorem silent_enterPhase (session : Session) (id : CallId) (phase : SearchPhase) :
    Silent session (session.enterPhase id phase).2 :=
  tolerates_silent.enterPhase session id phase

theorem silent_stageCall
    {session : Session}
    {stage : Stage Plan}
    {chosen : CallId × Session}
    (h : session.stageCall stage = .ok chosen) :
    Silent session chosen.2 := by
  rw [eq_of_stageCall h]
  exact ⟨rfl, rfl⟩

theorem silent_applyMapper
    (session : Session)
    (own : CallId)
    (mapper : Value → Mapping Value)
    (value : Value) :
    Silent session (session.applyMapper own mapper value).2 := by
  have hcancels := (silent_note (rfl : (Observation.applied own).subject = none) session).trans
    (silent_cancelAll (mapper value).cancels _)
  unfold applyMapper
  dsimp only
  split
  · rename_i failure after heq
    rwa [heq] at hcancels
  · rename_i after heq
    rwa [heq] at hcancels

theorem silent_applyFlatMapper
    (session : Session)
    (own : CallId)
    (mapper : Value → Mapping (Stage Plan))
    (value : Value) :
    Silent session (session.applyFlatMapper own mapper value).2 := by
  have hcancels := (silent_note (rfl : (Observation.applied own).subject = none) session).trans
    (silent_cancelAll (mapper value).cancels _)
  unfold applyFlatMapper
  dsimp only
  split
  · exact Silent.refl session
  · split
    · rename_i failure after heq
      rwa [heq] at hcancels
    · rename_i marked heq
      rw [heq] at hcancels
      cases hchosen : (mapper value).result.bind marked.stageCall with
      | error failure => exact hcancels
      | ok chosen =>
          obtain ⟨stage, _, hstage⟩ := exists_stageCall_of_bind hchosen
          have hsilent := hcancels.trans (silent_stageCall hstage)
          exact ⟨hsilent.history, hsilent.searches⟩

/-! ### Pieces of the bodies of searches -/

/-- A body has failed, and was silent. -/
structure GivesUp (session : Session) (result : Progress × Session) : Prop extends
    Silent session result.2 where
  failed : ∃ failure, result.1 = .ends (.error failure)

theorem Silent.givesUp
    {session marked : Session}
    (h : Silent session marked)
    (own : CallId)
    (failure : Failure) :
    GivesUp session (marked.failPhase own failure) :=
  ⟨⟨h.history, h.searches⟩, failure, rfl⟩

/-- A trace search has issued a search, as a new call that it executes next. -/
structure Issues
    (own : CallId)
    (asked : Search)
    (frame : Frame)
    (session : Session)
    (result : Progress × Session) : Prop where
  progress : result.1 = .executes session.calls.size frame
  history : result.2.history = .issued own session.calls.size :: session.history
  searches : result.2.searches = session.searches
  plan : (result.2.call session.calls.size).plan = .search asked
  next : (result.2.call own).next = some session.calls.size

theorem issue_of_canceled
    {session : Session}
    {own : CallId}
    (hflag : (session.call own).canceled = true)
    (asked : Search)
    (frame : Frame) :
    session.issue own asked frame =
      session.failPhase own (.canceledBeforePhase (session.call own).phase) :=
  if_pos hflag

theorem issues_of_not_canceled
    {session : Session}
    {own : CallId}
    (hown : own < session.calls.size)
    (hflag : (session.call own).canceled = false)
    (asked : Search)
    (frame : Frame) :
    Issues own asked frame session (session.issue own asked frame) := by
  have hadded := Calls.added_add session.calls (.search asked)
  have hlt : own < (session.calls.add (.search asked)).1.size :=
    Nat.lt_of_lt_of_le hown hadded.adds.size
  have hget := Calls.get_modify hlt
    fun call => { call with next := some (session.calls.add (.search asked)).2 }
  unfold issue
  dsimp only
  rw [if_neg (by simp [hflag])]
  refine ⟨rfl, history_note_of_subject rfl _, rfl, ?_, ?_⟩
  · have hne : session.calls.size ≠ own := Nat.ne_of_gt hown
    exact (congrArg Call.plan ((hget session.calls.size).trans (if_neg hne))).trans hadded.plan
  · exact congrArg Call.next ((hget own).trans (if_pos rfl))

theorem passPhase_of_ok
    {session : Session}
    {own : CallId}
    {phase : SearchPhase}
    (h : (session.enterPhase own phase).1 = .ok ())
    (next : Session → Progress × Session) :
    session.passPhase own phase next = next (session.enterPhase own phase).2 := by
  unfold passPhase
  rcases hresult : session.enterPhase own phase with ⟨_ | _, after⟩
  · rw [hresult] at h
    cases h
  · rfl

theorem passPhase_of_error
    {session : Session}
    {own : CallId}
    {phase : SearchPhase}
    {failure : Failure}
    (h : (session.enterPhase own phase).1 = .error failure)
    (next : Session → Progress × Session) :
    session.passPhase own phase next =
      (session.enterPhase own phase).2.failPhase own failure := by
  unfold passPhase
  rcases hresult : session.enterPhase own phase with ⟨_ | _, after⟩
  · rw [hresult] at h
    cases h
    rfl
  · rw [hresult] at h
    cases h

/-- A trace search is let pass to a phase: those who watch for it cancel their calls without a
failure, and the search itself is not canceled. -/
def Passes (session : Session) (own : CallId) (phase : SearchPhase) : Prop :=
  (session.enterPhase own phase).1 = .ok () ∧
    ((session.enterPhase own phase).2.call own).canceled = false

/-- A trace search that is let pass to another phase issues its search from there. -/
theorem issues_of_passes
    {session : Session}
    {own : CallId}
    {phase : SearchPhase}
    (h : session.Passes own phase)
    (hown : own < session.calls.size)
    (asked : Search)
    (frame : Frame) :
    Issues own asked frame session
      (session.passPhase own phase fun session => session.issue own asked frame) := by
  have hsilent := silent_enterPhase session own phase
  have hmarks := marks_enterPhase session own phase
  obtain ⟨hentered, hflag⟩ := h
  rw [passPhase_of_ok hentered]
  generalize (session.enterPhase own phase).2 = marked at hsilent hmarks hflag ⊢
  have hmarked : own < marked.calls.size := hmarks.calls.size ▸ hown
  obtain ⟨hprogress, hhistory, hsearches, hplan, hnext⟩ :=
    issues_of_not_canceled hmarked hflag asked frame
  rw [hmarks.calls.size] at hprogress hhistory hplan hnext
  exact ⟨hprogress, hhistory.trans (congrArg _ hsilent.history),
    hsearches.trans hsilent.searches, hplan, hnext⟩

/-- A trace search that is not let pass to another phase fails. -/
theorem givesUp_of_not_passes
    {session : Session}
    {own : CallId}
    {phase : SearchPhase}
    (h : ¬ session.Passes own phase)
    (asked : Search)
    (frame : Frame) :
    GivesUp session (session.passPhase own phase fun session => session.issue own asked frame) := by
  have hsilent := silent_enterPhase session own phase
  cases hresult : (session.enterPhase own phase).1 with
  | error failure =>
      rw [passPhase_of_error hresult]
      exact hsilent.givesUp own failure
  | ok =>
      rw [passPhase_of_ok hresult]
      have hflag : ((session.enterPhase own phase).2.call own).canceled = true :=
        eq_true_of_ne_false fun hflag => h ⟨hresult, hflag⟩
      rw [issue_of_canceled hflag]
      exact hsilent.givesUp own _

/-- A trace search that goes to another phase and issues a search from there either fails or has
issued it. -/
theorem passPhase_issue
    {session : Session}
    {own : CallId}
    (hown : own < session.calls.size)
    (phase : SearchPhase)
    (asked : Search)
    (frame : Frame) :
    GivesUp session (session.passPhase own phase fun session => session.issue own asked frame) ∨
      Issues own asked frame session
        (session.passPhase own phase fun session => session.issue own asked frame) := by
  by_cases hpasses : session.Passes own phase
  · exact Or.inr (issues_of_passes hpasses hown asked frame)
  · exact Or.inl (givesUp_of_not_passes hpasses asked frame)

theorem begin_of_plan_search
    {session : Session}
    {own : CallId}
    {asked : Search}
    (hplan : (session.call own).plan = .search asked) :
    session.begin own =
      (.waits (session.backend session.searches asked).gate
        (.reply own asked (session.backend session.searches asked)),
      { session with searches := session.searches + 1 }.note (.searched own asked)) := by
  rw [begin, hplan]

theorem begin_of_plan_traceSearch
    {session : Session}
    {own : CallId}
    {search : TraceSearch}
    (hown : own < session.calls.size)
    (hplan : (session.call own).plan = .traceSearch search) :
    GivesUp session (session.begin own) ∨
      Issues own search.listing (.listing own search) session (session.begin own) := by
  rw [begin, hplan]
  exact passPhase_issue hown .aggregating search.listing (.listing own search)

/-- A body that is not that of a search starts silently. -/
theorem silent_begin
    {session : Session}
    {own : CallId}
    (hsearch : ∀ asked, (session.call own).plan ≠ .search asked)
    (htraceSearch : ∀ search, (session.call own).plan ≠ .traceSearch search) :
    Silent session (session.begin own).2 := by
  unfold begin
  dsimp only
  cases hplan : (session.call own).plan with
  | search asked => exact absurd hplan (hsearch asked)
  | traceSearch search => exact absurd hplan (htraceSearch search)
  | constant value => exact Silent.refl session
  | recording leaf => exact ⟨rfl, rfl⟩
  | mapped first mapper => exact Silent.refl session
  | flatMapped first mapper => exact Silent.refl session

/-- A body that goes on after a failure fails with it. -/
theorem resume_error
    (session : Session)
    (frame : Frame)
    (failure : Failure) :
    (session.resume frame (.error failure)).1 = .ends (.error failure) ∧
      Silent session (session.resume frame (.error failure)).2 := by
  cases frame <;> exact ⟨rfl, rfl, rfl⟩

/-- A trace search that is given trace IDs either fails or has issued the search for their spans. -/
theorem resume_listing
    {session : Session}
    {own : CallId}
    {value : Value}
    (hown : own < session.calls.size)
    (search : TraceSearch)
    (hvalue : value.texts ≠ []) :
    GivesUp session (session.resume (.listing own search) (.ok value)) ∨
      Issues own (search.fetch value.texts) (.fetching own search value.texts) session
        (session.resume (.listing own search) (.ok value)) := by
  rw [resume, fetchListed, if_neg (by simpa using hvalue)]
  exact passPhase_issue hown .fetching (search.fetch value.texts) _

theorem silent_passPhase
    {session : Session}
    {own : CallId}
    {phase : SearchPhase}
    {next : Session → Progress × Session}
    (hnext : ∀ marked, Silent marked (next marked).2) :
    Silent session (session.passPhase own phase next).2 := by
  have hsilent := silent_enterPhase session own phase
  cases hresult : (session.enterPhase own phase).1 with
  | error failure =>
      rw [passPhase_of_error hresult]
      exact (hsilent.givesUp own failure).toSilent
  | ok =>
      rw [passPhase_of_ok hresult]
      exact hsilent.trans (hnext _)

theorem silent_assembleFetched
    (session : Session)
    (own : CallId)
    (search : TraceSearch)
    (ids : List String)
    (spans : List Span) :
    Silent session (session.assembleFetched own search ids spans).2 := by
  unfold assembleFetched
  refine silent_passPhase fun marked => ?_
  cases Trace.assemble search.criteria search.strict ids spans with
  | error error => exact ((Silent.refl marked).givesUp own _).toSilent
  | ok traces =>
      have hsilent := silent_enterPhase marked own .done
      dsimp only
      rcases hresult : marked.enterPhase own .done with ⟨_ | _, after⟩
      · rwa [hresult] at hsilent
      · rwa [hresult] at hsilent

/-- Only a trace search that is given trace IDs has anything to add to the history. -/
theorem silent_resume
    {session : Session}
    {frame : Frame}
    {value : Value}
    (hlisting : ∀ own search, frame = .listing own search → value.texts = []) :
    Silent session (session.resume frame (.ok value)).2 := by
  cases frame with
  | leaf own recording =>
      rw [resume]
      cases recording.failure with
      | none => exact Silent.refl session
      | some failure => exact Silent.refl session
  | reply own asked reply => exact Silent.refl session
  | next own => exact Silent.refl session
  | mapped own mapper => exact silent_applyMapper session own mapper value
  | first own mapper => exact silent_applyFlatMapper session own mapper value
  | listing own search =>
      rw [resume, fetchListed, if_pos (by simpa using hlisting own search rfl)]
      exact silent_passPhase fun marked => Silent.refl marked
  | fetching own search ids => exact silent_assembleFetched session own search ids value.spans

end Session

/-- What the body of a search makes of the value that it is given. -/
def Frame.Yields (given value : Value) : Frame → Prop
  | .reply _ asked answer => ∃ body, answer.result = .ok body ∧ asked.reading.read body = .ok value
  | .listing _ _ => given.texts = [] ∧ value = .list []
  | .fetching _ search ids => ∃ traces,
      Trace.assemble search.criteria search.strict ids given.spans = .ok traces ∧
        value = .ofTraces traces
  | _ => True

namespace Session

/-! ### What bodies end with -/

theorem ends_passPhase
    {session : Session}
    {own : CallId}
    {phase : SearchPhase}
    {next : Session → Progress × Session}
    (hnext : ∀ marked, ∃ outcome, (next marked).1 = .ends outcome) :
    ∃ outcome, (session.passPhase own phase next).1 = .ends outcome := by
  cases hresult : (session.enterPhase own phase).1 with
  | error failure =>
      rw [passPhase_of_error hresult]
      exact ⟨_, rfl⟩
  | ok =>
      rw [passPhase_of_ok hresult]
      exact hnext _

/-- A trace search that is given no trace IDs ends. -/
theorem ends_resume_listing
    {value : Value}
    (hvalue : value.texts = [])
    (session : Session)
    (own : CallId)
    (search : TraceSearch) :
    ∃ outcome, (session.resume (.listing own search) (.ok value)).1 = .ends outcome := by
  rw [resume, fetchListed, if_pos (by simpa using hvalue)]
  exact ends_passPhase fun marked => ⟨_, rfl⟩

/-- A trace search that is given the spans ends. -/
theorem ends_resume_fetching
    (session : Session)
    (own : CallId)
    (search : TraceSearch)
    (ids : List String)
    (value : Value) :
    ∃ outcome, (session.resume (.fetching own search ids) (.ok value)).1 = .ends outcome := by
  rw [resume, assembleFetched]
  refine ends_passPhase fun marked => ?_
  cases Trace.assemble search.criteria search.strict ids value.spans with
  | error error => exact ⟨_, rfl⟩
  | ok traces =>
      dsimp only
      split <;> exact ⟨_, rfl⟩

theorem readReply_eq_ok
    {session : Session}
    {own : CallId}
    {asked : Search}
    {reply : Reply}
    {value : Value}
    (h : session.readReply own asked reply = .ok value) :
    (session.call own).canceled = false ∧
      ∃ body, reply.result = .ok body ∧ asked.reading.read body = .ok value := by
  unfold readReply at h
  split at h
  · cases h
  · rename_i body hbody
    split at h
    · cases h
    · rename_i hflag
      refine ⟨by simpa using hflag, body, hbody, ?_⟩
      cases hread : asked.reading.read body with
      | error error =>
          rw [hread] at h
          cases h
      | ok read =>
          rw [hread] at h
          cases h
          rfl

/-- A body that ends with a value has made it of the one that it was given. -/
theorem yields_of_resume
    {session : Session}
    {frame : Frame}
    {given value : Value}
    (h : (session.resume frame (.ok given)).1 = .ends (.ok value)) :
    frame.Yields given value := by
  cases frame with
  | reply own asked reply => exact (readReply_eq_ok (Progress.ends.inj h)).2
  | listing own search =>
      rw [resume, fetchListed] at h
      split at h
      · rename_i hempty
        refine ⟨by simpa using hempty, ?_⟩
        cases hresult : (session.enterPhase own .done).1 with
        | error failure =>
            rw [passPhase_of_error hresult] at h
            cases h
        | ok =>
            rw [passPhase_of_ok hresult] at h
            cases h
            rfl
      · cases hresult : (session.enterPhase own .fetching).1 with
        | error failure =>
            rw [passPhase_of_error hresult] at h
            cases h
        | ok =>
            rw [passPhase_of_ok hresult] at h
            unfold issue at h
            dsimp only at h
            split at h
            · cases h
            · cases h
  | fetching own search ids =>
      rw [resume, assembleFetched] at h
      cases hresult : (session.enterPhase own .grouping).1 with
      | error failure =>
          rw [passPhase_of_error hresult] at h
          cases h
      | ok =>
          rw [passPhase_of_ok hresult] at h
          split at h
          · cases h
          · rename_i traces htraces
            split at h
            · cases h
              exact ⟨traces, htraces, rfl⟩
            · cases h
  | leaf own recording => trivial
  | mapped own mapper => trivial
  | first own mapper => trivial
  | next own => trivial

end Session

/-- An observation of searching: a trace search issues a search, or a search reaches the backend. -/
def Observation.isSearching : Observation → Bool
  | .issued _ _ => true
  | .searched _ _ => true
  | _ => false

/-- A search reaches the backend. -/
def Observation.isSearched : Observation → Bool
  | .searched _ _ => true
  | _ => false

namespace Session

/-- What a piece of a body has to tell of: searching of its own call, and all searches that reach
the backend meanwhile. -/
structure Tells (own : CallId) (told : List Observation) (session after : Session) : Prop where
  history : after.history = told ++ session.history
  subject : ∀ entry ∈ told, entry.subject = some own
  searching : ∀ entry ∈ told, entry.isSearching = true
  searches : after.searches = told.countP Observation.isSearched + session.searches

theorem Silent.tells
    {session after : Session}
    (h : Silent session after)
    (own : CallId) :
    Tells own [] session after :=
  ⟨h.history, by simp, by simp, h.searches.trans (Nat.zero_add _).symm⟩

theorem Issues.tells
    {own : CallId}
    {asked : Search}
    {frame : Frame}
    {session : Session}
    {result : Progress × Session}
    (h : Issues own asked frame session result) :
    Tells own [.issued own session.calls.size] session result.2 :=
  ⟨h.history, by simp [Observation.subject], by simp [Observation.isSearching],
    h.searches.trans (Nat.zero_add _).symm⟩

theorem tells_begin_of_plan_search
    {session : Session}
    {own : CallId}
    {asked : Search}
    (hplan : (session.call own).plan = .search asked) :
    Tells own [.searched own asked] session (session.begin own).2 := by
  rw [begin_of_plan_search hplan]
  exact ⟨history_note_of_subject rfl _, by simp [Observation.subject],
    by simp [Observation.isSearching], Nat.add_comm _ _⟩

/-- Nothing was told, or that a search was issued as a new call. -/
def IsNews (session : Session) (own : CallId) (told : List Observation) : Prop :=
  told = [] ∨ told = [.issued own session.calls.size]

/-- The first piece of a body tells of searching only; only that of a search reaches the backend. -/
theorem tells_begin
    {session : Session}
    {own : CallId}
    (hown : own < session.calls.size) :
    ∃ told, Tells own told session (session.begin own).2 ∧
      (session.IsNews own told ∨
        ∃ asked, (session.call own).plan = .search asked ∧ told = [.searched own asked]) := by
  have hsilent : Silent session (session.begin own).2 → ∃ told,
      Tells own told session (session.begin own).2 ∧ (session.IsNews own told ∨
        ∃ asked, (session.call own).plan = .search asked ∧ told = [.searched own asked]) :=
    fun hsilent => ⟨_, hsilent.tells own, Or.inl (Or.inl rfl)⟩
  cases hplan : (session.call own).plan with
  | search asked =>
      exact ⟨_, tells_begin_of_plan_search hplan, Or.inr ⟨asked, rfl, rfl⟩⟩
  | traceSearch search =>
      rcases begin_of_plan_traceSearch hown hplan with hgives | hissues
      · exact hplan ▸ hsilent hgives.toSilent
      · exact ⟨_, hissues.tells, Or.inl (Or.inr rfl)⟩
  | constant value => exact hplan ▸ hsilent (silent_begin (by simp [hplan]) (by simp [hplan]))
  | recording leaf => exact hplan ▸ hsilent (silent_begin (by simp [hplan]) (by simp [hplan]))
  | mapped first mapper =>
      exact hplan ▸ hsilent (silent_begin (by simp [hplan]) (by simp [hplan]))
  | flatMapped first mapper =>
      exact hplan ▸ hsilent (silent_begin (by simp [hplan]) (by simp [hplan]))

/-- A later piece of a body issues a search at most. -/
theorem tells_resume
    {session : Session}
    {frame : Frame}
    (hown : frame.call < session.calls.size)
    (outcome : Outcome) :
    ∃ told, Tells frame.call told session (session.resume frame outcome).2 ∧
      session.IsNews frame.call told := by
  cases outcome with
  | error failure =>
      exact ⟨_, (resume_error session frame failure).2.tells frame.call, Or.inl rfl⟩
  | ok value =>
      by_cases hlisting : ∃ own search, frame = .listing own search ∧ value.texts ≠ []
      · obtain ⟨own, search, rfl, hvalue⟩ := hlisting
        rcases resume_listing hown search hvalue with hgives | hissues
        · exact ⟨_, hgives.toSilent.tells own, Or.inl rfl⟩
        · exact ⟨_, hissues.tells, Or.inr rfl⟩
      · refine ⟨_, (silent_resume fun own search hframe => ?_).tells frame.call, Or.inl rfl⟩
        by_cases hvalue : value.texts = []
        · exact hvalue
        · exact absurd ⟨own, search, hframe, hvalue⟩ hlisting

end Session
end TraceArchive
