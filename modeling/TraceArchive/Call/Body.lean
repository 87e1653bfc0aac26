import TraceArchive.Call.Session

/-!
# Bodies of calls

The body of a call runs in pieces: up to the first thing that it waits for, and from there on with
the outcome.  What it waits for is another call or a gate.

The lines that a trace search logs when it goes to another phase are kept in the journal, and calls
can be canceled on them.  The line that a search logs before it asks the backend is left out: no
text is kept for it, the journal has only what was asked, and nobody can cancel a call on it.

* `begin`: the first piece.
* `resume`: a later piece.
-/

set_option autoImplicit false

namespace TraceArchive

/-- What the body of a call does next: it ends, executes another call, or waits at a gate, if
there is one to wait at. -/
inductive Progress where
  | ends (outcome : Outcome)
  | executes (call : CallId) (frame : Frame)
  | waits (gate : Option String) (frame : Frame)

namespace Session

/-- A trace search goes to another phase.  Whoever watches for it cancels a call, once, while the
old phase still stands; it keeps standing when that fails. -/
def enterPhase
    (session : Session)
    (id : CallId)
    (phase : SearchPhase) :
    Except Failure Unit × Session :=
  let session := session.note
    (.logged ("Trace search " ++ (session.call id).phase.name ++ " -> " ++ phase.name))
  match session.alert phase session.watches with
  | (.ok _, session) => (.ok (), session.updateCall id fun call => { call with phase := phase })
  | failed => failed

/-- A trace search fails. -/
def failPhase (session : Session) (id : CallId) (failure : Failure) : Progress × Session :=
  (.ends (.error failure), session.updateCall id fun call => { call with phase := .failed })

/-- A trace search goes to another phase and on from there; it fails when it cannot. -/
def passPhase
    (session : Session)
    (id : CallId)
    (phase : SearchPhase)
    (next : Session → Progress × Session) :
    Progress × Session :=
  match session.enterPhase id phase with
  | (.ok _, session) => next session
  | (.error failure, session) => session.failPhase id failure

/-- A trace search executes one of its searches, unless it was canceled. -/
def issue
    (session : Session)
    (id : CallId)
    (search : Search)
    (frame : Frame) :
    Progress × Session :=
  let call := session.call id
  if call.canceled then session.failPhase id (.canceledBeforePhase call.phase)
  else
    let (session, stage) := session.add (.search search)
    (.executes stage frame,
      (session.note (.issued id stage)).updateCall id fun call => { call with next := some stage })

/-- The body of a call from its start. -/
def begin (session : Session) (id : CallId) : Progress × Session :=
  let call := session.call id
  match call.plan with
  | .constant value => (.ends (.ok value), session)
  | .recording leaf =>
      (.waits leaf.gate (.leaf id leaf),
        session.updateCall id fun call => { call with runs := call.runs + 1 })
  | .mapped _ mapper => (.executes (call.first.getD id) (.mapped id mapper), session)
  | .flatMapped _ mapper => (.executes (call.first.getD id) (.first id mapper), session)
  | .search search =>
      let reply := session.backend session.searches search
      let session := { session with searches := session.searches + 1 }.note (.searched id search)
      (.waits reply.gate (.reply id search reply), session)
  | .traceSearch search =>
      session.passPhase id .aggregating fun session =>
        session.issue id search.listing (.listing id search)

/-- The call that a flat mapper chose. -/
def stageCall (session : Session) : Stage Plan → Except Failure (CallId × Session)
  | .fresh plan =>
      let (session, id) := session.add plan
      .ok (id, session)
  | .known label => do
      let id ← session.find label
      return (id, session)
  | .cloneOf label => do
      let id ← session.find label
      let (session, clone) := session.clone id
      return (clone, session)

/-- The body of a mapped call once its stage has a value. -/
def applyMapper
    (session : Session)
    (id : CallId)
    (mapper : Value → Mapping Value)
    (value : Value) :
    Progress × Session :=
  let mapping := mapper value
  match (session.note (.applied id)).cancelAll mapping.cancels with
  | (.error failure, session) => (.ends (.error failure), session)
  | (.ok _, session) => (.ends mapping.result, session)

/-- The body of a flat-mapped call once its first stage has a value. -/
def applyFlatMapper
    (session : Session)
    (id : CallId)
    (mapper : Value → Mapping (Stage Plan))
    (value : Value) :
    Progress × Session :=
  if (session.call id).canceled then (.ends (.error .canceledBeforeNext), session)
  else
    let mapping := mapper value
    match (session.note (.applied id)).cancelAll mapping.cancels with
    | (.error failure, session) => (.ends (.error failure), session)
    | (.ok _, session) =>
        match mapping.result.bind session.stageCall with
        | .error failure => (.ends (.error failure), session)
        | .ok (next, session) =>
            (.executes next (.next id),
              session.updateCall id fun call => { call with next := some next })

/-- The body of a search once its reply is there. -/
def readReply (session : Session) (id : CallId) (search : Search) (reply : Reply) : Outcome :=
  match reply.result with
  | .error failure => .error failure
  | .ok body =>
      if (session.call id).canceled then .error (.canceledInFlight search.request.target)
      else (search.reading.read body).mapError .badResponse

/-- The body of a trace search once the trace IDs are listed. -/
def fetchListed
    (session : Session)
    (id : CallId)
    (search : TraceSearch)
    (ids : List String) :
    Progress × Session :=
  if ids.isEmpty then
    session.passPhase id .done fun session => (.ends (.ok (.list [])), session)
  else
    session.passPhase id .fetching fun session =>
      session.issue id (search.fetch ids) (.fetching id search ids)

/-- The body of a trace search once the spans are fetched.  When it cannot go to its last phase it
stays in the one before. -/
def assembleFetched
    (session : Session)
    (id : CallId)
    (search : TraceSearch)
    (ids : List String)
    (spans : List Span) :
    Progress × Session :=
  session.passPhase id .grouping fun session =>
    match Trace.assemble search.criteria search.strict ids spans with
    | .error error => session.failPhase id (.badTraces error)
    | .ok traces =>
        match session.enterPhase id .done with
        | (.ok _, session) => (.ends (.ok (.ofTraces traces)), session)
        | (.error failure, session) => (.ends (.error failure), session)

/-- The body of a call from the point where it waited. -/
def resume (session : Session) : Frame → Outcome → Progress × Session
  | .next _, outcome => (.ends outcome, session)
  | .listing id _, .error failure => session.failPhase id failure
  | .fetching id _ _, .error failure => session.failPhase id failure
  | _, .error failure => (.ends (.error failure), session)
  | .leaf _ leaf, .ok _ =>
      match leaf.failure with
      | some failure => (.ends (.error failure), session)
      | none => (.ends (.ok leaf.value), session)
  | .reply id search reply, .ok _ => (.ends (session.readReply id search reply), session)
  | .mapped id mapper, .ok value => session.applyMapper id mapper value
  | .first id mapper, .ok value => session.applyFlatMapper id mapper value
  | .listing id search, .ok value => session.fetchListed id search value.texts
  | .fetching id search ids, .ok value => session.assembleFetched id search ids value.spans

end Session
end TraceArchive
