import TraceArchive.Call.Mappers
import TraceArchive.Proofs.Session.Execution

/-!
# What plans compute

What the execution of a plan shows and comes to, said without calls, tasks and gates: plans compute
in a monad of failures that also keeps what is seen meanwhile.

* `Event`, `Computation`: what is seen, and what may fail after some of it was seen.
* `Computation.Comes`: a computation has shown something and has come to the rest of it.
* `Plan.Computes`: a mapped plan applies its function, a flat-mapped one binds.
* `Plan.BuildsFresh`, `Plan.BuildsFresh.exists_computes`: plans whose mappers only build new calls
  compute something.
* `Computation.FailsFast`, `Plan.Computes.failsFast`: nothing but the ends of bodies comes after a
  failure, and all of them end with that same failure.
-/

set_option autoImplicit false

namespace TraceArchive

/-- What is seen of the execution of plans: one begins or ends, a mapper is applied, a trace search
issues a search, a search reaches the backend. -/
inductive Event where
  | began (plan : Plan)
  | applied (plan : Plan)
  | issued (plan : Plan)
  | searched (search : Search)
  | concluded (plan : Plan) (outcome : Outcome)

/-- A search reaches the backend. -/
def Event.isSearched : Event → Bool
  | .searched _ => true
  | _ => false

/-- The failure that a plan ends with. -/
def Event.failure? : Event → Option Failure
  | .concluded _ (.error failure) => some failure
  | _ => none

/-- What labels stand for: the plans of labelled calls. -/
abbrev Names : Type :=
  String → Except Failure Plan

/-- What searches are answered, given how many there were before. -/
abbrev Answers : Type :=
  Nat → Search → Except Failure Json

/-- How many searches reach the backend. -/
def Event.searches (events : List Event) : Nat :=
  events.countP Event.isSearched

/-- What is seen until a value is there or a failure, given how many searches there were before. -/
def Computation (α : Type) : Type :=
  Nat → List Event × Except Failure α

namespace Computation

variable {α β γ : Type}

/-- The computation that shows nothing. -/
def give (result : Except Failure α) : Computation α :=
  fun _ => ([], result)

/-- The computation that shows one thing. -/
def tell (event : Event) : Computation Unit :=
  fun _ => ([event], .ok ())

/-- One computation after another one, whatever that has come to. -/
def followedBy
    (first : Computation α)
    (next : Except Failure α → Computation β) :
    Computation β :=
  fun asked =>
    let before := first asked
    let after := next before.2 (asked + Event.searches before.1)
    (before.1 ++ after.1, after.2)

/-- What goes on with a value gives up after a failure. -/
instance : Monad Computation where
  pure value := give (.ok value)
  bind first next := first.followedBy fun
    | .ok value => next value
    | .error failure => give (.error failure)

@[simp] theorem give_followedBy
    (result : Except Failure α)
    (next : Except Failure α → Computation β) :
    (give result).followedBy next = next result := by
  funext asked
  simp [followedBy, give, Event.searches]

theorem followedBy_give (first : Computation α) : first.followedBy give = first := by
  funext asked
  simp [followedBy, give]

theorem followedBy_assoc
    (first : Computation α)
    (next : Except Failure α → Computation β)
    (last : Except Failure β → Computation γ) :
    (first.followedBy next).followedBy last =
      first.followedBy fun result => (next result).followedBy last := by
  funext asked
  simp [followedBy, Event.searches, List.countP_append, Nat.add_assoc]

theorem bind_give_ok
    (value : α)
    (next : α → Computation β) :
    (give (.ok value) >>= next) = next value :=
  give_followedBy _ _

theorem bind_give_error
    (failure : Failure)
    (next : α → Computation β) :
    (give (.error failure) >>= next) = give (.error failure) :=
  give_followedBy _ _

theorem bind_eq_followedBy
    (first : Computation α)
    (next : α → Computation β) :
    (first >>= next) = first.followedBy fun result => give result >>= next := by
  refine congrArg first.followedBy (funext fun result => ?_)
  cases result with
  | ok value => exact (bind_give_ok value next).symm
  | error failure => exact (bind_give_error failure next).symm

/-! ### Coming to the rest -/

/-- A computation has shown something and has come to the rest of it. -/
def Comes
    (whole : Computation α)
    (asked : Nat)
    (events : List Event)
    (rest : Computation α) : Prop :=
  whole asked = (events ++ (rest (asked + Event.searches events)).1,
    (rest (asked + Event.searches events)).2)

theorem Comes.refl (whole : Computation α) (asked : Nat) : whole.Comes asked [] whole :=
  rfl

theorem Comes.trans
    {whole rest last : Computation α}
    {asked : Nat}
    {events more : List Event}
    (h : whole.Comes asked events rest)
    (h' : rest.Comes (asked + Event.searches events) more last) :
    whole.Comes asked (events ++ more) last := by
  rw [Comes, h, h']
  simp [Event.searches, List.countP_append, Nat.add_assoc]

theorem Comes.followedBy
    {whole rest : Computation α}
    {asked : Nat}
    {events : List Event}
    (h : whole.Comes asked events rest)
    (next : Except Failure α → Computation β) :
    (whole.followedBy next).Comes asked events (rest.followedBy next) := by
  rw [Comes, Computation.followedBy, h]
  simp [Computation.followedBy, Event.searches, List.countP_append, Nat.add_assoc]

theorem comes_tell_bind
    (event : Event)
    (asked : Nat)
    (next : Unit → Computation α) :
    (tell event >>= next).Comes asked [event] (next ()) :=
  rfl

/-! ### Bodies -/

/-- The end of a plan's body. -/
def concluding (plan : Plan) (body : Computation Value) : Computation Value :=
  body.followedBy fun outcome => do
    tell (.concluded plan outcome)
    give outcome

theorem concluding_followedBy
    (plan : Plan)
    (first : Computation α)
    (next : Except Failure α → Computation Value)
    (last : Outcome → Computation β) :
    ((first.followedBy next).concluding plan).followedBy last =
      first.followedBy fun result => ((next result).concluding plan).followedBy last := by
  simp only [concluding, followedBy_assoc]

/-- The execution of a plan with a body. -/
def within (plan : Plan) (body : Computation Value) : Computation Value := do
  tell (.began plan)
  concluding plan body

/-- A search reaches the backend, and its answer is read. -/
def asking (answers : Answers) (search : Search) : Computation Value :=
  fun asked => ([.searched search], Session.answerOf search (answers asked search))

/-- A trace search issues one of its searches. -/
def issuing
    (answers : Answers)
    (owner : TraceSearch)
    (search : Search) :
    Computation Value := do
  tell (.issued (.traceSearch owner))
  within (.search search) (asking answers search)

end Computation

open TraceArchive.Computation

/-- What a leaf comes to. -/
def Recording.outcome (leaf : Recording) : Outcome :=
  match leaf.failure with
  | some failure => .error failure
  | none => .ok leaf.value

/-- What a trace search makes of the spans of the traces that it listed. -/
def TraceSearch.assembled (search : TraceSearch) (ids : List String) (spans : List Span) : Outcome :=
  ((Trace.assemble search.criteria search.strict ids spans).mapError .badTraces).map .ofTraces

/-- What a trace search does once the trace IDs are listed. -/
def TraceSearch.following
    (search : TraceSearch)
    (answers : Answers)
    (ids : List String) :
    Computation Value :=
  if ids.isEmpty then give (.ok (.list []))
  else do
    let fetched ← issuing answers search (search.fetch ids)
    give (search.assembled ids fetched.spans)

/-- The plan of the call that a flat mapper chose, given what labels stand for. -/
def Stage.meaning (names : Names) : Stage Plan → Except Failure Plan
  | .fresh plan => .ok plan
  | .known label => names label
  | .cloneOf label => names label

/-- What the body of a plan computes, given what labels stand for and what searches are answered.
The plans that flat mappers choose are part of it, so that only plans whose stages come to an end
compute anything; none of its mappers cancels a call. -/
inductive Plan.Computes
    (names : Names)
    (answers : Answers) :
    Plan → Computation Value → Prop
  | constant (value : Value) :
      Computes names answers (.constant value) (give (.ok value))
  | recording (leaf : Recording) :
      Computes names answers (.recording leaf) (give leaf.outcome)
  | mapped {first : Plan} {mapper : Value → Mapping Value} {body : Computation Value}
      (hfirst : Computes names answers first body)
      (hpure : ∀ value, (mapper value).cancels = []) :
      Computes names answers (.mapped first mapper) do
        let value ← within first body
        tell (.applied (.mapped first mapper))
        give (mapper value).result
  | flatMapped {first : Plan} {mapper : Value → Mapping (Stage Plan)} {body : Computation Value}
      {next : Value → Computation Value}
      (hfirst : Computes names answers first body)
      (hpure : ∀ value, (mapper value).cancels = [])
      (hnext : ∀ value plan, (mapper value).result.bind (Stage.meaning names) = .ok plan →
        Computes names answers plan (next value)) :
      Computes names answers (.flatMapped first mapper) do
        let value ← within first body
        tell (.applied (.flatMapped first mapper))
        let chosen ← give ((mapper value).result.bind (Stage.meaning names))
        within chosen (next value)
  | search (search : Search) :
      Computes names answers (.search search) (asking answers search)
  | traceSearch (search : TraceSearch) :
      Computes names answers (.traceSearch search) do
        let listed ← issuing answers search search.listing
        search.following answers listed.texts

/-! ### Plans that build fresh calls -/

/-- A flat mapper that builds what it chooses. -/
def FlatMapper.IsFresh (mapper : Value → Mapping (Stage Plan)) : Prop :=
  ∀ value stage, (mapper value).result = .ok stage → ∃ plan, stage = .fresh plan

theorem FlatMapper.isFresh_constant : FlatMapper.IsFresh FlatMapper.constant :=
  fun _ _ hresult => ⟨_, (Except.ok.inj hresult).symm⟩

/-- What a flat mapper chose is a new call, be it a clone of one that a label stands for. -/
def Stage.IsNew (names : Names) : Stage Plan → Prop
  | .fresh _ => True
  | .known _ => False
  | .cloneOf label => ∃ plan, names label = .ok plan

/-- The mappers of a plan cancel nothing and only build new calls, and so do those of the plans that
they choose. -/
inductive Plan.BuildsFresh (names : Names) : Plan → Prop
  | constant (value : Value) : BuildsFresh names (.constant value)
  | recording (leaf : Recording) : BuildsFresh names (.recording leaf)
  | mapped {first : Plan} {mapper : Value → Mapping Value}
      (hfirst : BuildsFresh names first)
      (hpure : ∀ value, (mapper value).cancels = []) :
      BuildsFresh names (.mapped first mapper)
  | flatMapped {first : Plan} {mapper : Value → Mapping (Stage Plan)}
      (hfirst : BuildsFresh names first)
      (hpure : ∀ value, (mapper value).cancels = [])
      (hnew : ∀ value stage, (mapper value).result = .ok stage → stage.IsNew names)
      (hnext : ∀ value plan, (mapper value).result.bind (Stage.meaning names) = .ok plan →
        BuildsFresh names plan) :
      BuildsFresh names (.flatMapped first mapper)
  | search (search : Search) : BuildsFresh names (.search search)
  | traceSearch (search : TraceSearch) : BuildsFresh names (.traceSearch search)

/-- Such plans compute something. -/
theorem Plan.BuildsFresh.exists_computes
    {names : Names}
    {plan : Plan}
    (h : plan.BuildsFresh names)
    (answers : Answers) :
    ∃ body, plan.Computes names answers body := by
  induction h with
  | constant value => exact ⟨_, .constant value⟩
  | recording leaf => exact ⟨_, .recording leaf⟩
  | mapped _ hpure ih =>
      obtain ⟨body, hbody⟩ := ih
      exact ⟨_, .mapped hbody hpure⟩
  | @flatMapped first mapper _ hpure _ _ ih ihNext =>
      obtain ⟨body, hbody⟩ := ih
      have hall : ∀ value, ∃ next, ∀ plan,
          (mapper value).result.bind (Stage.meaning names) = .ok plan →
            plan.Computes names answers next := by
        intro value
        cases hchosen : (mapper value).result.bind (Stage.meaning names) with
        | error failure => exact ⟨give (.error failure), nofun⟩
        | ok plan =>
            obtain ⟨next, hnext⟩ := ihNext value plan hchosen
            refine ⟨next, fun other hsame => ?_⟩
            cases hsame
            exact hnext
      obtain ⟨next, hnext⟩ := Classical.axiomOfChoice hall
      exact ⟨_, .flatMapped hbody hpure hnext⟩
  | search search => exact ⟨_, .search search⟩
  | traceSearch search => exact ⟨_, .traceSearch search⟩

/-! ### Failing fast -/

namespace Computation

variable {α β : Type}

/-- What is seen falls in two: first no plan fails, and then plans end with a failure and nothing
else happens; that failure is what it all comes to. -/
def IsShort (events : List Event) (result : Except Failure α) : Prop :=
  ∃ calm failing, events = calm ++ failing ∧ (∀ event ∈ calm, event.failure? = none) ∧
    ∀ event ∈ failing, ∃ failure, event.failure? = some failure ∧ result = .error failure

/-- After a failure nothing happens but that plans end with it. -/
def FailsFast (computation : Computation α) : Prop :=
  ∀ asked, IsShort (computation asked).1 (computation asked).2

theorem isShort_of_calm
    {events : List Event}
    (h : ∀ event ∈ events, event.failure? = none)
    (result : Except Failure α) :
    IsShort events result :=
  ⟨events, [], (List.append_nil events).symm, h, by simp⟩

/-- With a value nothing has failed. -/
theorem IsShort.calm
    {events : List Event}
    {value : α}
    (h : IsShort events (.ok value : Except Failure α)) :
    ∀ event ∈ events, event.failure? = none := by
  obtain ⟨calm, failing, rfl, hcalm, hfailing⟩ := h
  intro event hevent
  rcases List.mem_append.mp hevent with hearlier | hlater
  · exact hcalm event hearlier
  · obtain ⟨failure, _, hresult⟩ := hfailing event hlater
    cases hresult

theorem failsFast_give (result : Except Failure α) : (give result).FailsFast :=
  fun _ => isShort_of_calm (by simp [give]) result

theorem failsFast_tell
    {event : Event}
    (h : event.failure? = none) :
    (tell event).FailsFast :=
  fun _ => isShort_of_calm (by simpa [tell] using h) _

theorem failsFast_asking
    (answers : Answers)
    (search : Search) :
    (asking answers search).FailsFast :=
  fun _ => isShort_of_calm (by simp [asking, Event.failure?]) _

theorem FailsFast.bind
    {first : Computation α}
    {next : α → Computation β}
    (hfirst : first.FailsFast)
    (hnext : ∀ value, (next value).FailsFast) :
    (first >>= next).FailsFast := by
  intro asked
  show IsShort (first.followedBy _ asked).1 (first.followedBy _ asked).2
  have hshort := hfirst asked
  unfold followedBy
  rcases hresult : first asked with ⟨events, failure | value⟩
  · rw [hresult] at hshort
    obtain ⟨calm, failing, hevents, hcalm, hfailing⟩ := hshort
    refine ⟨calm, failing, ?_, hcalm, ?_⟩
    · exact (List.append_nil events).trans hevents
    · intro event hevent
      obtain ⟨same, hsame, hfails⟩ := hfailing event hevent
      cases hfails
      exact ⟨failure, hsame, rfl⟩
  · rw [hresult] at hshort
    obtain ⟨calm, failing, hevents, hcalm, hfailing⟩ := hnext value (asked + Event.searches events)
    refine ⟨events ++ calm, failing, ?_, ?_, hfailing⟩
    · exact (congrArg (events ++ ·) hevents).trans (List.append_assoc events calm failing).symm
    · exact List.forall_mem_append.mpr ⟨hshort.calm, hcalm⟩

theorem FailsFast.concluding
    {body : Computation Value}
    (h : body.FailsFast)
    (plan : Plan) :
    (body.concluding plan).FailsFast := by
  intro asked
  have hshort := h asked
  unfold Computation.concluding followedBy
  rcases hresult : body asked with ⟨events, failure | value⟩
  · rw [hresult] at hshort
    obtain ⟨calm, failing, hevents, hcalm, hfailing⟩ := hshort
    refine ⟨calm, failing ++ [.concluded plan (.error failure)], ?_, hcalm, ?_⟩
    · exact (congrArg (· ++ [_]) hevents).trans (List.append_assoc calm failing _)
    · refine List.forall_mem_append.mpr ⟨?_, ?_⟩
      · intro event hevent
        obtain ⟨same, hsame, hfails⟩ := hfailing event hevent
        cases hfails
        exact ⟨failure, hsame, rfl⟩
      · exact List.forall_mem_singleton.mpr ⟨failure, rfl, rfl⟩
  · rw [hresult] at hshort
    refine isShort_of_calm ?_ _
    exact List.forall_mem_append.mpr ⟨hshort.calm, List.forall_mem_singleton.mpr rfl⟩

theorem FailsFast.within
    {body : Computation Value}
    (h : body.FailsFast)
    (plan : Plan) :
    (body.within plan).FailsFast :=
  (failsFast_tell rfl).bind fun _ => h.concluding plan

theorem failsFast_issuing
    (answers : Answers)
    (owner : TraceSearch)
    (search : Search) :
    (issuing answers owner search).FailsFast :=
  (failsFast_tell rfl).bind fun _ => (failsFast_asking answers search).within _

end Computation

variable {names : Names} {answers : Answers}

theorem TraceSearch.failsFast_following (search : TraceSearch) (ids : List String) :
    (search.following answers ids).FailsFast := by
  unfold TraceSearch.following
  split
  · exact failsFast_give _
  · exact (failsFast_issuing answers search _).bind fun _ => failsFast_give _

/-- Whatever a plan computes fails fast. -/
theorem Plan.Computes.failsFast
    {plan : Plan}
    {body : Computation Value}
    (h : plan.Computes names answers body) :
    body.FailsFast := by
  induction h with
  | constant value => exact failsFast_give _
  | recording leaf => exact failsFast_give _
  | mapped _ _ ih =>
      exact (ih.within _).bind fun _ => (failsFast_tell rfl).bind fun _ => failsFast_give _
  | @flatMapped first mapper body next _ _ _ ih ihNext =>
      refine (ih.within _).bind fun value => (failsFast_tell rfl).bind fun _ => ?_
      -- A flat mapper that fails gives nothing to go on with.
      cases hchosen : (mapper value).result.bind (Stage.meaning names) with
      | error failure =>
          rw [bind_give_error]
          exact failsFast_give _
      | ok plan =>
          rw [bind_give_ok]
          exact (ihNext value plan hchosen).within plan
  | search search => exact failsFast_asking answers search
  | traceSearch search =>
      exact (failsFast_issuing answers search _).bind fun listed =>
        search.failsFast_following listed.texts

end TraceArchive
