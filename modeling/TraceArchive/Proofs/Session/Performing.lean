import TraceArchive.Proofs.Computations
import TraceArchive.Proofs.Session.Alterations

/-!
# Bodies perform what plans compute

A piece of the body of a call that was not canceled shows what the computation of its plan shows
first, and leaves the rest to its frame and to the call that it goes on to.

* `Observation.event?`: what an observation shows of a plan.
* `Frame.Continues`, `Progress.Leaves`: what a frame goes on with, and what a piece of a body leaves.
* `Session.Offers`: what a flat mapper may choose.
* `performs_begin`, `performs_resume`: every piece of every body.
-/

set_option autoImplicit false

namespace TraceArchive

open TraceArchive.Computation

/-- The call that something was observed of. -/
def Observation.actor? : Observation → Option CallId
  | .began call => some call
  | .applied call => some call
  | .issued call _ => some call
  | .searched call _ => some call
  | .concluded call _ => some call
  | _ => none

/-- What an observation shows, given the plans of the calls. -/
def Observation.event? (plans : CallId → Plan) : Observation → Option Event
  | .began call => some (.began (plans call))
  | .applied call => some (.applied (plans call))
  | .issued call _ => some (.issued (plans call))
  | .searched _ search => some (.searched search)
  | .concluded call outcome => some (.concluded (plans call) outcome)
  | _ => none

/-- What a frame's body goes on with, once what it waits for has an outcome. -/
inductive Frame.Continues (names : Names) (answers : Answers) (plan : Plan) :
    Frame → (Outcome → Computation Value) → Prop
  | leaf (own : CallId) (leaf : Recording) :
      Continues names answers plan (.leaf own leaf) fun outcome => do
        let _ ← give outcome
        give leaf.outcome
  | reply (own : CallId) (search : Search) (reply : Reply) :
      Continues names answers plan (.reply own search reply) fun outcome => do
        let _ ← give outcome
        give (Session.answerOf search reply.result)
  | mapped (own : CallId) {mapper : Value → Mapping Value}
      (hpure : ∀ value, (mapper value).cancels = []) :
      Continues names answers plan (.mapped own mapper) fun outcome => do
        let value ← give outcome
        tell (.applied plan)
        give (mapper value).result
  | first (own : CallId) {mapper : Value → Mapping (Stage Plan)} {next : Value → Computation Value}
      (hpure : ∀ value, (mapper value).cancels = [])
      (hnext : ∀ value plan, (mapper value).result.bind (Stage.meaning names) = .ok plan →
        plan.Computes names answers (next value)) :
      Continues names answers plan (.first own mapper) fun outcome => do
        let value ← give outcome
        tell (.applied plan)
        let chosen ← give ((mapper value).result.bind (Stage.meaning names))
        within chosen (next value)
  | next (own : CallId) :
      Continues names answers plan (.next own) give
  | listing (own : CallId) (search : TraceSearch) :
      Continues names answers plan (.listing own search) fun outcome => do
        let listed ← give outcome
        search.following answers listed.texts
  | fetching (own : CallId) (search : TraceSearch) (ids : List String) :
      Continues names answers plan (.fetching own search ids) fun outcome => do
        let fetched ← give outcome
        give (search.assembled ids fetched.spans)

/-- After a failure every body ends with it. -/
theorem Frame.Continues.apply_error
    {names : Names}
    {answers : Answers}
    {plan : Plan}
    {frame : Frame}
    {after : Outcome → Computation Value}
    (h : frame.Continues names answers plan after)
    (failure : Failure) :
    after (.error failure) = give (.error failure) := by
  cases h with
  | next own => rfl
  | _ => exact bind_give_error failure _

/-- What a piece of a body leaves: an outcome, an unused call and then its own frame, or its own
frame alone. -/
inductive Progress.Leaves (names : Names) (answers : Answers) (calls : Calls) (plan : Plan) :
    Progress → Computation Value → Prop
  | ends (outcome : Outcome) :
      Leaves names answers calls plan (.ends outcome) (give outcome)
  | executes {next : CallId} {frame : Frame} {stage : Plan} {body : Computation Value}
      {after : Outcome → Computation Value}
      (hunused : calls.Unused stage next)
      (hbody : stage.Computes names answers body)
      (hframe : frame.Continues names answers plan after) :
      Leaves names answers calls plan (.executes next frame) ((within stage body).followedBy after)
  | waits (gate : Option String) {frame : Frame} {after : Outcome → Computation Value}
      (hframe : frame.Continues names answers plan after) :
      Leaves names answers calls plan (.waits gate frame) (after (.ok .null))

theorem Plan.Computes.isPure
    {names : Names}
    {answers : Answers}
    {plan : Plan}
    {body : Computation Value}
    (h : plan.Computes names answers body) :
    plan.IsPure := by
  cases h with
  | mapped _ hpure => exact hpure
  | flatMapped _ hpure _ => exact hpure
  | _ => trivial

namespace Session

/-- What a label stands for now. -/
def named (session : Session) (label : String) : Except Failure Plan :=
  (session.find label).map fun id => (session.call id).plan

/-- A flat mapper may choose this: labels stand for what they are said to, and a known call is
unused. -/
def Offers (session : Session) (names : Names) : Stage Plan → Prop
  | .fresh _ => True
  | .known label => session.named label = names label ∧
      ∀ id, session.find label = .ok id → session.calls.Unused (session.call id).plan id
  | .cloneOf label => session.named label = names label

/-- A piece of a body has shown what a computation shows first, and leaves the rest of it. -/
structure Performs
    (names : Names)
    (answers : Answers)
    (plan : Plan)
    (own : CallId)
    (asked : Nat)
    (computation : Computation Value)
    (session : Session)
    (result : Progress × Session)
    (news : List Observation)
    (rest : Computation Value) : Prop where
  journal : result.2.journal = news.reverse ++ session.journal
  about : ∀ entry ∈ news, ∀ id, entry.actor? = some id → id = own
  comes : computation.Comes asked (news.filterMap (Observation.event? fun _ => plan)) rest
  leaves : result.1.Leaves names answers result.2.calls plan rest
  unended : ∀ outcome, .concluded own outcome ∉ news

variable {names : Names} {answers : Answers}
variable {plan : Plan} {own : CallId} {asked : Nat} {session : Session}

/-- A piece of a body ends it, or shows something. -/
def Speaks (own : CallId) (news : List Observation) (progress : Progress) : Prop :=
  (∃ outcome, progress = .ends outcome) ∨ ∃ entry ∈ news, entry.actor? = some own

/-- A piece of a body that shows nothing. -/
theorem performs_of_silent
    {computation : Computation Value}
    {result : Progress × Session}
    (hjournal : result.2.journal = session.journal)
    (hleaves : result.1.Leaves names answers result.2.calls plan computation) :
    Performs names answers plan own asked computation session result [] computation :=
  ⟨hjournal, by simp, Comes.refl computation asked, hleaves, by simp⟩

theorem performs_of_ends
    {result : Progress × Session}
    {outcome : Outcome}
    (hprogress : result.1 = .ends outcome)
    (hjournal : result.2.journal = session.journal) :
    Performs names answers plan own asked (give outcome) session result [] (give outcome) :=
  performs_of_silent hjournal (hprogress ▸ .ends outcome)

theorem state_entering
    (session : Session)
    (own : CallId)
    (phase : SearchPhase)
    (id : CallId) :
    ((session.entering own phase).call id).state = (session.call id).state :=
  Calls.field_modify Call.state (fun call => { call with phase := phase }) (fun _ => rfl)
    session.calls own id

/-- A trace search logs that it goes to another phase, and performs the rest there. -/
theorem Performs.of_entering
    {phase : SearchPhase}
    {computation rest : Computation Value}
    {result : Progress × Session}
    {news : List Observation}
    (h : Performs names answers plan own asked computation (session.entering own phase) result news
      rest) :
    ∃ line, Performs names answers plan own asked computation session result (.logged line :: news)
      rest := by
  refine ⟨"Trace search " ++ (session.call own).phase.name ++ " -> " ++ phase.name, ?_, ?_, ?_,
    h.leaves, ?_⟩
  · rw [h.journal, List.reverse_cons, List.append_assoc]
    rfl
  · intro entry hentry id hactor
    rcases List.mem_cons.mp hentry with rfl | hmem
    · cases hactor
    · exact h.about entry hmem id hactor
  · exact h.comes
  · intro outcome hmem
    rcases List.mem_cons.mp hmem with heq | hlater
    · cases heq
    · exact h.unended outcome hlater

/-- A trace search that was not canceled issues a search, and goes on to it. -/
theorem performs_issue
    {search : TraceSearch}
    {frame : Frame}
    {after : Outcome → Computation Value}
    (hown : own < session.calls.size)
    (hbegun : (session.call own).state ≠ .new)
    (hflag : (session.call own).canceled = false)
    (hframe : frame.Continues names answers (.traceSearch search) after)
    (issued : Search)
    (asked : Nat) :
    ∃ rest, Performs names answers (.traceSearch search) own asked
      ((issuing answers search issued).followedBy after) session (session.issue own issued frame)
      [.issued own session.calls.size] rest := by
  have hadded := Calls.added_add session.calls (.search issued)
  have hunused := Calls.unused_add session.calls (.search issued)
  have hset := alters_setNext ((session.add (.search issued)).1.note (.issued own
    session.calls.size)) own session.calls.size
  have hissue : session.issue own issued frame = (.executes session.calls.size frame,
      (((session.add (.search issued)).1.note (.issued own session.calls.size)).updateCall own
        fun call => { call with next := some session.calls.size })) := by
    rw [issue]
    exact if_neg (by simp [hflag])
  rw [hissue]
  refine ⟨_, rfl, ?_, ?_, .executes (hunused.of_alters hset ?_) (.search issued) hframe, by simp⟩
  · simp [Observation.actor?]
  · have hcomes := comes_tell_bind (.issued (.traceSearch search)) asked fun _ =>
      within (.search issued) (asking answers issued)
    exact hcomes.followedBy after
  · exact (congrArg Call.state (hadded.adds.old own hown)).symm ▸ hbegun

/-- The first piece of a body. -/
theorem performs_begin
    {body : Computation Value}
    (hown : own < session.calls.size)
    (hplan : (session.call own).plan = plan)
    (hbegun : (session.call own).state ≠ .new)
    (hflag : (session.call own).canceled = false)
    (hunwatched : session.IsUnwatched own)
    (hstage : ∀ first, plan.stage? = some first →
      ∃ stage, (session.call own).first = some stage ∧ session.calls.Unused first stage)
    (hanswer : ∀ search, plan = .search search →
      (session.backend session.searches search).result = answers asked search)
    (hbody : plan.Computes names answers body) :
    ∃ news rest, Performs names answers plan own asked body session (session.begin own) news
      rest := by
  unfold begin
  dsimp only
  rw [hplan]
  cases hbody with
  | constant value => exact ⟨[], _, performs_of_silent rfl (.ends _)⟩
  | recording leaf =>
      refine ⟨[], _, performs_of_silent rfl ?_⟩
      exact bind_give_ok Value.null (fun _ => give leaf.outcome) ▸ .waits leaf.gate (.leaf own leaf)
  | mapped hfirst hpure =>
      obtain ⟨stage, hsome, hunused⟩ := hstage _ rfl
      refine ⟨[], _, performs_of_silent rfl ?_⟩
      rw [hsome, bind_eq_followedBy]
      exact .executes hunused hfirst (.mapped own hpure)
  | flatMapped hfirst hpure hnext =>
      obtain ⟨stage, hsome, hunused⟩ := hstage _ rfl
      refine ⟨[], _, performs_of_silent rfl ?_⟩
      rw [hsome, bind_eq_followedBy]
      exact .executes hunused hfirst (.first own hpure hnext)
  | search search =>
      refine ⟨[.searched own search], _, rfl, by simp [Observation.actor?], ?_,
        .waits _ (.reply own search (session.backend session.searches search)), by simp⟩
      rw [bind_give_ok, hanswer search rfl]
      rfl
  | traceSearch search =>
      dsimp only
      rw [passPhase_of_nil (hunwatched search hplan), bind_eq_followedBy]
      have halters := alters_entering session own .aggregating
      have hentered : own < (session.entering own .aggregating).calls.size :=
        Nat.lt_of_lt_of_le hown halters.size
      have hstate : ((session.entering own .aggregating).call own).state ≠ .new :=
        fun hnew => hbegun ((state_entering session own .aggregating own).symm.trans hnew)
      obtain ⟨rest, hissued⟩ := performs_issue hentered hstate
        ((halters.canceled own hown).trans hflag) (.listing own search) search.listing asked
      obtain ⟨line, hperforms⟩ := hissued.of_entering
      exact ⟨_, rest, hperforms⟩

/-! ### Later pieces -/

theorem resume_leaf
    (session : Session)
    (own : CallId)
    (leaf : Recording)
    (value : Value) :
    session.resume (.leaf own leaf) (.ok value) = (.ends leaf.outcome, session) := by
  rw [resume, Recording.outcome]
  cases leaf.failure <;> rfl

theorem readReply_of_not_canceled
    (hflag : (session.call own).canceled = false)
    (search : Search)
    (reply : Reply) :
    session.readReply own search reply = answerOf search reply.result := by
  rw [readReply, answerOf]
  cases reply.result with
  | error failure => rfl
  | ok body => exact if_neg (by simp [hflag])

/-- The body of a mapped call ends with what its mapper gives. -/
theorem performs_applyMapper
    {mapper : Value → Mapping Value}
    {value : Value}
    (hpure : (mapper value).cancels = []) :
    Performs names answers plan own asked
      (do
        tell (.applied plan)
        give (mapper value).result)
      session (session.applyMapper own mapper value) [.applied own]
      (give (mapper value).result) := by
  rw [applyMapper_of_pure hpure]
  exact ⟨rfl, by simp [Observation.actor?], comes_tell_bind _ asked _, .ends _, by simp⟩

/-- What a flat mapper may choose is a call that is not known, or an unused call of the plan that it
stands for. -/
theorem stageCall_of_offers
    {stage : Stage Plan}
    (hformed : session.Formed)
    (h : session.Offers names stage) :
    (∃ failure, session.stageCall stage = .error failure ∧
        stage.meaning names = .error failure) ∨
      ∃ chosen plan, session.stageCall stage = .ok chosen ∧ stage.meaning names = .ok plan ∧
        chosen.2.calls.Unused plan chosen.1 ∧ chosen.2.journal = session.journal := by
  cases stage with
  | fresh plan => exact Or.inr ⟨_, plan, rfl, rfl, Calls.unused_add session.calls plan, rfl⟩
  | known label =>
      obtain ⟨hnamed, hunused⟩ := h
      rw [stageCall, Stage.meaning, ← hnamed, named]
      cases hfind : session.find label with
      | error failure => exact Or.inl ⟨failure, rfl, rfl⟩
      | ok id => exact Or.inr ⟨_, _, rfl, rfl, hunused id hfind, rfl⟩
  | cloneOf label =>
      have hnamed : session.named label = names label := h
      rw [hformed.stageCall_cloneOf, Stage.meaning, ← hnamed, named]
      cases hfind : session.find label with
      | error failure => exact Or.inl ⟨failure, rfl, rfl⟩
      | ok id =>
          exact Or.inr ⟨_, _, rfl, rfl, Calls.unused_add session.calls (session.call id).plan, rfl⟩

/-- A flat mapper fails, or chooses an unused call of a plan. -/
theorem chosen_of_offers
    {result : Except Failure (Stage Plan)}
    (hformed : session.Formed)
    (h : ∀ stage, result = .ok stage → session.Offers names stage) :
    (∃ failure, result.bind session.stageCall = .error failure ∧
        result.bind (Stage.meaning names) = .error failure) ∨
      ∃ chosen plan, result.bind session.stageCall = .ok chosen ∧
        result.bind (Stage.meaning names) = .ok plan ∧
        chosen.2.calls.Unused plan chosen.1 ∧ chosen.2.journal = session.journal := by
  cases result with
  | error failure => exact Or.inl ⟨failure, rfl, rfl⟩
  | ok stage => exact stageCall_of_offers hformed (h stage rfl)

theorem offers_note
    {stage : Stage Plan}
    (h : session.Offers names stage)
    (entry : Observation) :
    (session.note entry).Offers names stage := by
  cases stage <;> exact h

/-- The body of a flat-mapped call goes on to what its mapper chose. -/
theorem performs_applyFlatMapper
    {mapper : Value → Mapping (Stage Plan)}
    {next : Value → Computation Value}
    {value : Value}
    (hown : own < session.calls.size)
    (hformed : session.Formed)
    (hbegun : (session.call own).state ≠ .new)
    (hflag : (session.call own).canceled = false)
    (hoffers : ∀ stage, (mapper value).result = .ok stage → session.Offers names stage)
    (hpure : (mapper value).cancels = [])
    (hnext : ∀ plan, (mapper value).result.bind (Stage.meaning names) = .ok plan →
      plan.Computes names answers (next value)) :
    ∃ rest, Performs names answers plan own asked
      (do
        tell (.applied plan)
        let chosen ← give ((mapper value).result.bind (Stage.meaning names))
        within chosen (next value))
      session (session.applyFlatMapper own mapper value) [.applied own] rest := by
  have hnoted : (session.note (.applied own)).Formed := ⟨hformed.staged, hformed.labels⟩
  have hnotedOffers := fun stage hstage => offers_note (hoffers stage hstage) (.applied own)
  rcases chosen_of_offers hnoted hnotedOffers with
    ⟨failure, hchosen, hmeaning⟩ | ⟨chosen, stagePlan, hchosen, hmeaning, hunused, hjournal⟩
  · rw [applyFlatMapper_of_error hpure hflag hchosen, hmeaning, bind_give_error]
    exact ⟨_, rfl, by simp [Observation.actor?], comes_tell_bind _ asked _, .ends _, by simp⟩
  · obtain ⟨stage, _, hstage⟩ := exists_stageCall_of_bind hchosen
    have hadds := (stageCall_eq_ok hnoted hstage).1
    have hstate : (chosen.2.call own).state ≠ .new := fun hnew =>
      hbegun ((congrArg Call.state (hadds.old own hown)).symm.trans hnew)
    have hset := alters_setNext chosen.2 own chosen.1
    rw [applyFlatMapper_of_ok hpure hflag hchosen, hmeaning, bind_give_ok,
      ← followedBy_give (within stagePlan (next value))]
    refine ⟨_, hjournal, by simp [Observation.actor?], comes_tell_bind _ asked _, ?_, by simp⟩
    exact .executes (hunused.of_alters hset hstate) (hnext stagePlan hmeaning) (.next own)

/-- A trace search fetches the spans of the traces that were listed, if there are any. -/
theorem performs_fetchListed
    {search : TraceSearch}
    (hown : own < session.calls.size)
    (hplan : (session.call own).plan = .traceSearch search)
    (hbegun : (session.call own).state ≠ .new)
    (hflag : (session.call own).canceled = false)
    (hunwatched : session.IsUnwatched own)
    (ids : List String) :
    ∃ news rest, Performs names answers (.traceSearch search) own asked
        (search.following answers ids) session (session.fetchListed own search ids) news rest ∧
      Speaks own news (session.fetchListed own search ids).1 := by
  have hwatches := hunwatched search hplan
  unfold fetchListed TraceSearch.following
  split
  · rw [passPhase_of_nil hwatches]
    have hends : Performs names answers (.traceSearch search) own asked (give (.ok (.list [])))
        (session.entering own .done) (.ends (.ok (.list [])), session.entering own .done) []
        (give (.ok (.list []))) := performs_of_ends rfl rfl
    obtain ⟨line, hperforms⟩ := hends.of_entering
    exact ⟨_, _, hperforms, Or.inl ⟨_, rfl⟩⟩
  · rw [passPhase_of_nil hwatches, bind_eq_followedBy]
    have halters := alters_entering session own .fetching
    have hentered := Nat.lt_of_lt_of_le hown halters.size
    have hstate : ((session.entering own .fetching).call own).state ≠ .new :=
      fun hnew => hbegun ((state_entering session own .fetching own).symm.trans hnew)
    obtain ⟨rest, hissued⟩ := performs_issue hentered hstate
      ((halters.canceled own hown).trans hflag) (.fetching own search ids) (search.fetch ids)
        asked
    obtain ⟨line, hperforms⟩ := hissued.of_entering
    exact ⟨_, rest, hperforms, Or.inr ⟨_, List.mem_cons_of_mem _ (List.mem_singleton_self _), rfl⟩⟩

/-- A trace search makes traces of the spans that were fetched. -/
theorem performs_assembleFetched
    {search : TraceSearch}
    (hwatches : session.watches = [])
    (ids : List String)
    (spans : List Span) :
    ∃ news rest, Performs names answers plan own asked (give (search.assembled ids spans)) session
        (session.assembleFetched own search ids spans) news rest ∧
      Speaks own news (session.assembleFetched own search ids spans).1 := by
  unfold assembleFetched
  rw [passPhase_of_nil hwatches, TraceSearch.assembled]
  cases Trace.assemble search.criteria search.strict ids spans with
  | error error =>
      have hends : Performs names answers plan own asked (give (.error (.badTraces error)))
          (session.entering own .grouping)
          ((session.entering own .grouping).failPhase own (.badTraces error)) []
          (give (.error (.badTraces error))) := performs_of_ends rfl rfl
      obtain ⟨line, hperforms⟩ := hends.of_entering
      exact ⟨_, _, hperforms, Or.inl ⟨_, rfl⟩⟩
  | ok traces =>
      have hends : Performs names answers plan own asked (give (.ok (.ofTraces traces)))
          ((session.entering own .grouping).entering own .done)
          (.ends (.ok (.ofTraces traces)), (session.entering own .grouping).entering own .done) []
          (give (.ok (.ofTraces traces))) := performs_of_ends rfl rfl
      obtain ⟨done, hdone⟩ := hends.of_entering
      obtain ⟨grouping, hgrouping⟩ := hdone.of_entering
      have hentered : (session.entering own .grouping).watches = [] := hwatches
      dsimp only
      rw [enterPhase_of_nil hentered]
      exact ⟨_, _, hgrouping, Or.inl ⟨_, rfl⟩⟩

/-- A later piece of a body. -/
theorem performs_resume
    {frame : Frame}
    {after : Outcome → Computation Value}
    {outcome : Outcome}
    (hown : frame.call < session.calls.size)
    (hformed : session.Formed)
    (hplan : (session.call frame.call).plan = plan)
    (hfits : frame.Fits plan)
    (hbegun : (session.call frame.call).state ≠ .new)
    (hflag : (session.call frame.call).canceled = false)
    (hunwatched : session.IsUnwatched frame.call)
    (hoffers : ∀ own mapper value stage, frame = .first own mapper → outcome = .ok value →
      (mapper value).result = .ok stage → session.Offers names stage)
    (hframe : frame.Continues names answers plan after) :
    ∃ news rest, Performs names answers plan frame.call asked (after outcome) session
        (session.resume frame outcome) news rest ∧
      Speaks frame.call news (session.resume frame outcome).1 := by
  cases outcome with
  | error failure =>
      rw [hframe.apply_error]
      cases frame <;> exact ⟨_, _, performs_of_ends rfl rfl, Or.inl ⟨_, rfl⟩⟩
  | ok value =>
      cases hframe with
      | leaf own leaf =>
          dsimp only
          rw [bind_give_ok, resume_leaf]
          exact ⟨_, _, performs_of_ends rfl rfl, Or.inl ⟨_, rfl⟩⟩
      | reply own search reply =>
          dsimp only
          have hread := readReply_of_not_canceled hflag search reply
          rw [bind_give_ok, ← hread]
          exact ⟨_, _, performs_of_ends rfl rfl, Or.inl ⟨_, rfl⟩⟩
      | next own => exact ⟨_, _, performs_of_ends rfl rfl, Or.inl ⟨_, rfl⟩⟩
      | mapped own hpure =>
          dsimp only
          rw [bind_give_ok]
          exact ⟨_, _, performs_applyMapper (hpure value),
            Or.inl ⟨_, congrArg Prod.fst (applyMapper_of_pure (hpure value) session own)⟩⟩
      | first own hpure hnext =>
          dsimp only
          rw [bind_give_ok]
          obtain ⟨rest, hperforms⟩ := performs_applyFlatMapper hown hformed hbegun hflag
            (fun stage => hoffers own _ value stage rfl rfl) (hpure value) (hnext value)
          exact ⟨_, rest, hperforms, Or.inr ⟨_, List.mem_singleton_self _, rfl⟩⟩
      | listing own search =>
          have hsearch : plan = .traceSearch search := hfits
          subst hsearch
          dsimp only
          rw [bind_give_ok]
          exact performs_fetchListed hown hplan hbegun hflag hunwatched value.texts
      | fetching own search ids =>
          dsimp only
          rw [bind_give_ok]
          exact performs_assembleFetched (hunwatched search (hplan.trans hfits)) ids value.spans

end Session
end TraceArchive
