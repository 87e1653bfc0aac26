import TraceArchive.Proofs.Calls
import TraceArchive.Proofs.Entries
import TraceArchive.Proofs.Monadic
import TraceArchive.Proofs.Session.Moves

/-!
# What the body of a call can do

A piece of a body cancels calls, makes new ones, and sets the next stage of its own call.  Then it
ends, or goes on to a call that its own call delegates to, or waits.

* `Frame.awaits`, `Frame.Fits`: the call that a frame goes on after, and the plan it belongs to.
* `Marks`, `Works`: what canceling changes, and what a piece of a body changes.
* `Tolerates`: relations that are kept to whichever calls are canceled.
* `works_begin`, `works_resume`: every piece of every body.
* `canceled_of_begin`, `canceled_of_resume`: a body that goes on to another call was not canceled,
  unless its own flat mapper has just canceled it.
-/

set_option autoImplicit false

namespace TraceArchive

namespace Calls

/-- What a piece of a call's body does to the calls: it cancels some, adds new ones, and may change
the next stage of its own call. -/
structure Grows (own : CallId) (calls calls' : Calls) : Prop where
  size : calls.size ≤ calls'.size
  plan : ∀ id < calls.size, (calls'.get id).plan = (calls.get id).plan
  state : ∀ id < calls.size, (calls'.get id).state = (calls.get id).state
  first : ∀ id < calls.size, (calls'.get id).first = (calls.get id).first
  next : ∀ id < calls.size, id ≠ own → (calls'.get id).next = (calls.get id).next
  canceled : ∀ id < calls.size, (calls.get id).canceled = true → (calls'.get id).canceled = true
  below : calls.IsForest → ∀ id < calls.size,
    (calls.get id).canceled = false → (calls'.get id).canceled = true →
      ∀ other < calls.size, calls.Below id other →
        (calls'.get other).canceled = true ∨ (calls.get other).plan.ignoresCancel = true
  fresh : ∀ id < calls'.size, calls.size ≤ id → calls'.IsFresh id

theorem Adds.grows
    {calls calls' : Calls}
    (h : Adds calls calls')
    (own : CallId) :
    Grows own calls calls' := by
  refine ⟨h.size, ?_, ?_, ?_, ?_, ?_, ?_, h.fresh⟩
  · exact fun id hid => congrArg Call.plan (h.old id hid)
  · exact fun id hid => congrArg Call.state (h.old id hid)
  · exact fun id hid => congrArg Call.first (h.old id hid)
  · exact fun id hid _ => congrArg Call.next (h.old id hid)
  · intro id hid hflag
    rw [h.old id hid, hflag]
  · intro _ id hid hbefore hafter
    rw [h.old id hid, hbefore] at hafter
    exact absurd hafter (by simp)

/-- A piece of a body may cancel calls first. -/
theorem Marks.trans_grows
    {own : CallId}
    {calls marked calls' : Calls}
    (h : Marks calls marked)
    (h' : Grows own marked calls') :
    Grows own calls calls' := by
  have hlt : ∀ id < calls.size, id < marked.size := fun id hid => h.size ▸ hid
  refine ⟨h.size ▸ h'.size, ?_, ?_, ?_, ?_, ?_, ?_, ?_⟩
  · exact fun id hid => (h'.plan id (hlt id hid)).trans (h.plan id)
  · exact fun id hid => (h'.state id (hlt id hid)).trans (h.state id)
  · exact fun id hid => (h'.first id (hlt id hid)).trans (h.first id)
  · exact fun id hid hne => (h'.next id (hlt id hid) hne).trans (h.next id)
  · exact fun id hid hflag => h'.canceled id (hlt id hid) (h.canceled id hflag)
  · intro hforest id hid hbefore hafter other hother hbelow
    cases hmiddle : (marked.get id).canceled with
    | true =>
        rcases h.below hforest id hbefore hmiddle other hother hbelow with hflag | hignores
        · exact Or.inl (h'.canceled other (hlt other hother) hflag)
        · exact Or.inr hignores
    | false =>
        rcases h'.below (h.isForest_iff.mpr hforest) id (hlt id hid) hmiddle hafter other
          (hlt other hother) (h.below_iff.mpr hbelow) with hflag | hignores
        · exact Or.inl hflag
        · exact Or.inr (h.plan other ▸ hignores)
  · exact fun id hid hle => h'.fresh id hid (h.size ▸ hle)

/-- A piece of a body may set the next stage of its own call at last. -/
theorem Grows.setNext
    {own : CallId}
    {calls calls' : Calls}
    (h : Grows own calls calls')
    (hown : own < calls.size)
    (next : CallId) :
    Grows own calls (calls'.modify own fun call => { call with next := some next }) := by
  have hown' := Nat.lt_of_lt_of_le hown h.size
  have hget := get_modify hown' fun call => { call with next := some next }
  have hplan := field_modify Call.plan (fun call => { call with next := some next })
    (fun _ => rfl) calls' own
  have hstate := field_modify Call.state (fun call => { call with next := some next })
    (fun _ => rfl) calls' own
  have hfirst := field_modify Call.first (fun call => { call with next := some next })
    (fun _ => rfl) calls' own
  have hflag := field_modify Call.canceled (fun call => { call with next := some next })
    (fun _ => rfl) calls' own
  refine ⟨?_, ?_, ?_, ?_, ?_, ?_, ?_, ?_⟩
  · simpa using h.size
  · exact fun id hid => (hplan id).trans (h.plan id hid)
  · exact fun id hid => (hstate id).trans (h.state id hid)
  · exact fun id hid => (hfirst id).trans (h.first id hid)
  · intro id hid hne
    rw [hget, if_neg hne, h.next id hid hne]
  · exact fun id hid hcanceled => (hflag id).trans (h.canceled id hid hcanceled)
  · intro hforest id hid hbefore hafter other hother hbelow
    rw [hflag] at hafter ⊢
    exact h.below hforest id hid hbefore hafter other hother hbelow
  · intro id hlt hle
    have hne : id ≠ own := Nat.ne_of_gt (Nat.lt_of_lt_of_le hown hle)
    obtain ⟨plan, first, hfresh, hstage, hstaged⟩ := h.fresh id (by simpa using hlt) hle
    exact ⟨plan, first, by rw [hget, if_neg hne, hfresh], hstage,
      hstaged.congr (fun other _ => hplan other) (hfirst id)⟩

end Calls

/-- The call that a frame goes on after, if it is one. -/
def Frame.awaits (calls : Calls) : Frame → Option CallId
  | .leaf _ _ => none
  | .reply _ _ _ => none
  | .mapped call _ => (calls.get call).first
  | .first call _ => (calls.get call).first
  | .next call => (calls.get call).next
  | .listing call _ => (calls.get call).next
  | .fetching call _ _ => (calls.get call).next

/-- A frame belongs to the body of a plan. -/
def Frame.Fits (plan : Plan) : Frame → Prop
  | .leaf _ recording => plan = .recording recording
  | .reply _ search _ => plan = .search search
  | .mapped _ mapper => ∃ first, plan = .mapped first mapper
  | .first _ mapper => ∃ first, plan = .flatMapped first mapper
  | .next _ => ∃ first mapper, plan = .flatMapped first mapper
  | .listing _ search => plan = .traceSearch search
  | .fetching _ search _ => plan = .traceSearch search

/-- The frames of a search wait for its reply. -/
theorem Frame.Fits.of_search
    {asked : Search}
    {frame : Frame}
    (h : frame.Fits (.search asked)) :
    ∃ call reply, frame = .reply call asked reply := by
  cases frame with
  | reply call asked' reply =>
      cases h
      exact ⟨call, reply, rfl⟩
  | mapped call mapper => obtain ⟨_, ⟨⟩⟩ := h
  | first call mapper => obtain ⟨_, ⟨⟩⟩ := h
  | next call => obtain ⟨_, _, ⟨⟩⟩ := h
  | leaf call recording => cases h
  | listing call search => cases h
  | fetching call search ids => cases h

/-- The frames of a trace search wait for trace IDs or for spans. -/
theorem Frame.Fits.of_traceSearch
    {search : TraceSearch}
    {frame : Frame}
    (h : frame.Fits (.traceSearch search)) :
    (∃ call, frame = .listing call search) ∨ ∃ call ids, frame = .fetching call search ids := by
  cases frame with
  | listing call search =>
      cases h
      exact Or.inl ⟨call, rfl⟩
  | fetching call search ids =>
      cases h
      exact Or.inr ⟨call, ids, rfl⟩
  | mapped call mapper => obtain ⟨_, ⟨⟩⟩ := h
  | first call mapper => obtain ⟨_, ⟨⟩⟩ := h
  | next call => obtain ⟨_, _, ⟨⟩⟩ := h
  | leaf call recording => cases h
  | reply call asked reply => cases h

/-- The labels of the calls that a frame's mapper cancels when it is applied to a value. -/
def Frame.cancels (value : Value) : Frame → List String
  | .mapped _ mapper => (mapper value).cancels
  | .first _ mapper => (mapper value).cancels
  | _ => []

/-- A frame goes on after a gate, not after a call. -/
def Frame.IsLeaf : Frame → Prop
  | .leaf _ _ => True
  | .reply _ _ _ => True
  | _ => False

theorem Frame.IsLeaf.awaits
    {frame : Frame}
    (h : frame.IsLeaf)
    (calls : Calls) :
    frame.awaits calls = none := by
  cases frame with
  | leaf call recording => rfl
  | reply call search reply => rfl
  | _ => exact absurd h id

/-- A body that goes on leaves a frame of its own call that fits, and goes on to the call that the
frame goes on after. -/
def Progress.Fits (own : CallId) (calls : Calls) : Progress → Prop
  | .ends _ => True
  | .executes call frame =>
      frame.call = own ∧ frame.Fits (calls.get own).plan ∧
        frame.awaits calls = some call ∧ call < calls.size
  | .waits _ frame => frame.call = own ∧ frame.Fits (calls.get own).plan ∧ frame.IsLeaf

namespace Session

/-- Tasks, gates and labels are as they were. -/
structure Keeps (session after : Session) : Prop where
  tasks : after.tasks = session.tasks
  ready : after.ready = session.ready
  active : after.active = session.active
  gates : after.gates = session.gates
  labels : after.labels = session.labels
  backend : after.backend = session.backend

theorem Keeps.refl (session : Session) : Keeps session session :=
  ⟨rfl, rfl, rfl, rfl, rfl, rfl⟩

theorem Keeps.trans
    {session middle after : Session}
    (h : Keeps session middle)
    (h' : Keeps middle after) :
    Keeps session after :=
  ⟨h'.tasks.trans h.tasks, h'.ready.trans h.ready, h'.active.trans h.active,
    h'.gates.trans h.gates, h'.labels.trans h.labels, h'.backend.trans h.backend⟩

/-- Calls were canceled, and nothing was started. -/
structure Marks (session after : Session) : Prop where
  keeps : Keeps session after
  calls : session.calls.Marks after.calls
  starts : after.starts = session.starts

theorem Marks.refl (session : Session) : Marks session session :=
  ⟨Keeps.refl session, Calls.Marks.refl session.calls, rfl⟩

theorem Marks.trans
    {session middle after : Session}
    (h : Marks session middle)
    (h' : Marks middle after) :
    Marks session after :=
  ⟨h.keeps.trans h'.keeps, h.calls.trans h'.calls, h'.starts.trans h.starts⟩

theorem marks_note
    {entry : Observation}
    (h : entry.isStart = false)
    (session : Session) :
    Marks session (session.note entry) :=
  ⟨⟨rfl, rfl, rfl, rfl, rfl, rfl⟩, Calls.Marks.refl session.calls, starts_note_of_not_isStart h⟩

theorem marks_cancel (session : Session) (id : CallId) :
    Marks session (session.cancel id).2 :=
  ⟨⟨rfl, rfl, rfl, rfl, rfl, rfl⟩, Calls.marks_cancel session.calls id, rfl⟩

theorem marks_updateCall
    {change : Call → Call}
    (hplan : ∀ call, (change call).plan = call.plan)
    (hstate : ∀ call, (change call).state = call.state)
    (hfirst : ∀ call, (change call).first = call.first)
    (hnext : ∀ call, (change call).next = call.next)
    (hcanceled : ∀ call, (change call).canceled = call.canceled)
    (session : Session) (id : CallId) :
    Marks session (session.updateCall id change) :=
  ⟨⟨rfl, rfl, rfl, rfl, rfl, rfl⟩,
    Calls.marks_modify hplan hstate hfirst hnext hcanceled, rfl⟩

theorem marks_setPhase (session : Session) (id : CallId) (phase : SearchPhase) :
    Marks session (session.updateCall id fun call => { call with phase := phase }) := by
  apply marks_updateCall <;> exact fun _ => rfl

/-- A relation between sessions that is kept to whichever calls are canceled, and when a trace
search logs its next phase and goes to it. -/
structure Tolerates (R : Session → Session → Prop) : Prop where
  refl : ∀ session, R session session
  trans : ∀ {session middle after}, R session middle → R middle after → R session after
  cancel : ∀ session id, R session (session.cancel id).2
  watches : ∀ {session after} watches, R session after →
    R session { after with watches := watches }
  logged : ∀ session text, R session (session.note (.logged text))
  setPhase : ∀ session id phase,
    R session (session.updateCall id fun call => { call with phase := phase })

section Cancellations

variable {R : Session → Session → Prop}

/-- What is kept to when one call is canceled is kept to when several are. -/
theorem related_cancelAll
    (hrefl : ∀ session, R session session)
    (htrans : ∀ {session middle after}, R session middle → R middle after → R session after)
    (hcancel : ∀ session id, R session (session.cancel id).2)
    (labels : List String)
    (session : Session) :
    R session (cancelAll labels session).2 := by
  induction labels generalizing session with
  | nil => exact hrefl session
  | cons label rest ih =>
      rw [Session.cancelAll]
      cases session.find label with
      | error failure => exact hrefl session
      | ok id =>
          have hone := hcancel session id
          dsimp only
          rcases hresult : session.cancel id with ⟨_ | _, after⟩
          · rw [hresult] at hone
            exact hone
          · rw [hresult] at hone
            exact htrans hone (ih after)

theorem Tolerates.cancelAll
    (h : Tolerates R)
    (labels : List String)
    (session : Session) :
    R session (cancelAll labels session).2 :=
  related_cancelAll h.refl h.trans h.cancel labels session

/-- What is kept to when one call is canceled is kept to when those who watch cancel several. -/
theorem related_alert
    (hrefl : ∀ session, R session session)
    (htrans : ∀ {session middle after}, R session middle → R middle after → R session after)
    (hcancel : ∀ session id, R session (session.cancel id).2)
    (hwatches : ∀ {session after} watches, R session after →
      R session { after with watches := watches })
    (phase : SearchPhase)
    (watches : List (SearchPhase × CallId))
    (session : Session) :
    R session (alert phase watches session).2 := by
  induction watches generalizing session with
  | nil => exact hwatches [] (hrefl session)
  | cons watch rest ih =>
      rw [Session.alert]
      split
      · have hone := hcancel session watch.2
        rcases hresult : session.cancel watch.2 with ⟨_ | _, after⟩
        · rw [hresult] at hone
          exact hwatches rest hone
        · rw [hresult] at hone
          exact htrans hone (ih after)
      · exact hwatches _ (ih session)

theorem Tolerates.alert
    (h : Tolerates R)
    (phase : SearchPhase)
    (watches : List (SearchPhase × CallId))
    (session : Session) :
    R session (alert phase watches session).2 :=
  related_alert h.refl h.trans h.cancel h.watches phase watches session

theorem Tolerates.enterPhase
    (h : Tolerates R)
    (session : Session)
    (id : CallId)
    (phase : SearchPhase) :
    R session (session.enterPhase id phase).2 := by
  unfold Session.enterPhase
  dsimp only
  generalize hnote : session.note _ = noted
  have hnoted : R session noted := hnote ▸ h.logged session _
  have halert := h.alert phase noted.watches noted
  rcases hresult : Session.alert phase noted.watches noted with ⟨_ | _, after⟩
  · rw [hresult] at halert
    exact h.trans hnoted halert
  · rw [hresult] at halert
    exact h.trans (h.trans hnoted halert) (h.setPhase after id phase)

end Cancellations

theorem tolerates_marks : Tolerates Marks := by
  refine ⟨Marks.refl, Marks.trans, marks_cancel, fun watches h => ?_,
    fun session _ => marks_note rfl session, marks_setPhase⟩
  exact ⟨⟨h.keeps.tasks, h.keeps.ready, h.keeps.active, h.keeps.gates, h.keeps.labels,
    h.keeps.backend⟩, h.calls, h.starts⟩

theorem marks_cancelAll (labels : List String) (session : Session) :
    Marks session (cancelAll labels session).2 :=
  tolerates_marks.cancelAll labels session

theorem marks_enterPhase (session : Session) (id : CallId) (phase : SearchPhase) :
    Marks session (session.enterPhase id phase).2 :=
  tolerates_marks.enterPhase session id phase

/-! ### Pieces of bodies -/

/-- What a piece of a call's body does to a session, and where it leaves it. -/
structure Piece (own : CallId) (session : Session) (result : Progress × Session) : Prop where
  keeps : Keeps session result.2
  grows : session.calls.Grows own result.2.calls
  fits : result.1.Fits own result.2.calls

/-- A piece of a body that starts nothing itself. -/
structure Works (own : CallId) (session : Session) (result : Progress × Session) : Prop extends
    Piece own session result where
  starts : result.2.starts = session.starts

theorem Piece.of_note
    {own : CallId}
    {session : Session}
    {entry : Observation}
    {result : Progress × Session}
    (h : Piece own (session.note entry) result) :
    Piece own session result :=
  ⟨⟨h.keeps.tasks, h.keeps.ready, h.keeps.active, h.keeps.gates, h.keeps.labels,
    h.keeps.backend⟩, h.grows, h.fits⟩

theorem Marks.works
    {session : Session}
    {result : Progress × Session}
    (h : Marks session result.2)
    {own : CallId}
    (hfits : result.1.Fits own result.2.calls) :
    Works own session result :=
  ⟨⟨h.keeps, h.calls.trans_grows ((Calls.Adds.refl result.2.calls).grows own), hfits⟩, h.starts⟩

theorem Marks.trans_works
    {own : CallId}
    {session marked : Session}
    {result : Progress × Session}
    (h : Marks session marked)
    (h' : Works own marked result) :
    Works own session result :=
  ⟨⟨h.keeps.trans h'.keeps, h.calls.trans_grows h'.grows, h'.fits⟩, h'.starts.trans h.starts⟩

theorem works_ends
    (own : CallId)
    (session : Session)
    (outcome : Outcome) :
    Works own session (.ends outcome, session) :=
  (Marks.refl session).works trivial

theorem works_failPhase
    (own : CallId)
    (session : Session)
    (failure : Failure) :
    Works own session (session.failPhase own failure) :=
  (marks_setPhase session own .failed).works trivial

theorem works_passPhase
    {own : CallId}
    {session : Session}
    {phase : SearchPhase}
    {next : Session → Progress × Session}
    (hnext : ∀ marked, Marks session marked → Works own marked (next marked)) :
    Works own session (session.passPhase own phase next) := by
  have hmarks := marks_enterPhase session own phase
  unfold passPhase
  rcases hresult : session.enterPhase own phase with ⟨_ | _, after⟩
  · rw [hresult] at hmarks
    exact hmarks.trans_works (works_failPhase own after _)
  · rw [hresult] at hmarks
    exact hmarks.trans_works (hnext after hmarks)

theorem works_issue
    {own : CallId}
    {session : Session}
    {frame : Frame}
    (hown : own < session.calls.size)
    (hcall : frame.call = own)
    (hfits : frame.Fits (session.call own).plan)
    (hawaits : ∀ calls : Calls, frame.awaits calls = (calls.get own).next)
    (search : Search) :
    Works own session (session.issue own search frame) := by
  unfold issue
  dsimp only
  split
  · exact works_failPhase own session _
  · have hadded := Calls.added_add session.calls (.search search)
    have hgrows := (hadded.adds.grows own).setNext hown (session.calls.add (.search search)).2
    have hlt := Nat.lt_of_lt_of_le hown hadded.adds.size
    refine ⟨⟨⟨rfl, rfl, rfl, rfl, rfl, rfl⟩, hgrows, hcall, ?_, ?_, ?_⟩, rfl⟩
    · have hplan := hgrows.plan own hown
      exact hplan ▸ hfits
    · refine (hawaits _).trans ?_
      exact congrArg Call.next ((Calls.get_modify hlt _ own).trans (if_pos rfl))
    · exact Nat.lt_of_lt_of_eq hadded.lt Array.size_modify.symm

/-- Composed calls stand on calls for the plans of their stages, and the labelled calls exist. -/
structure Formed (session : Session) : Prop where
  staged : ∀ id < session.calls.size, session.calls.IsStaged id
  labels : ∀ entry ∈ session.labels, entry.2 < session.calls.size

theorem Formed.find_lt
    {session : Session}
    (h : session.Formed)
    {label : String}
    {id : CallId}
    (hfind : session.find label = .ok id) :
    id < session.calls.size := by
  unfold find at hfind
  split at hfind
  · rename_i found hget
    cases hfind
    exact h.labels (label, id) (Entries.mem_of_get? hget)
  · cases hfind

/-- The body of a call goes on to its first stage, to its search, or to its reply. -/
theorem works_begin
    {own : CallId}
    {session : Session}
    (hformed : session.Formed)
    (hown : own < session.calls.size) :
    Works own session (session.begin own) := by
  have hstage := hformed.staged own hown
  unfold begin
  dsimp only
  cases hplan : (session.call own).plan with
  | constant value => exact works_ends own session _
  | recording leaf =>
      have hmarks : Marks session
          (session.updateCall own fun call => { call with runs := call.runs + 1 }) := by
        apply marks_updateCall <;> exact fun _ => rfl
      exact hmarks.works ⟨rfl, (hmarks.calls.plan own).trans hplan, trivial⟩
  | mapped first mapper =>
      obtain ⟨stage, hlt, hfirst, _⟩ := hstage first (congrArg Plan.first? hplan)
      have hcall : (session.call own).first = some stage := hfirst
      refine (Marks.refl session).works ⟨rfl, ⟨first, hplan⟩, ?_, ?_⟩
      · show (session.call own).first = some ((session.call own).first.getD own)
        rw [hcall]
        rfl
      · simpa [hcall] using Nat.lt_trans hlt hown
  | flatMapped first mapper =>
      obtain ⟨stage, hlt, hfirst, _⟩ := hstage first (congrArg Plan.first? hplan)
      have hcall : (session.call own).first = some stage := hfirst
      refine (Marks.refl session).works ⟨rfl, ⟨first, hplan⟩, ?_, ?_⟩
      · show (session.call own).first = some ((session.call own).first.getD own)
        rw [hcall]
        rfl
      · simpa [hcall] using Nat.lt_trans hlt hown
  | search search =>
      refine ⟨⟨⟨rfl, rfl, rfl, rfl, rfl, rfl⟩, (Calls.Adds.refl session.calls).grows own, ?_⟩, rfl⟩
      exact ⟨rfl, hplan, trivial⟩
  | traceSearch search =>
      refine works_passPhase fun marked hmarks => ?_
      have hlt : own < marked.calls.size := hmarks.calls.size ▸ hown
      have hfits : (Frame.listing own search).Fits (marked.call own).plan :=
        (hmarks.calls.plan own).trans hplan
      exact works_issue hlt rfl hfits (fun _ => rfl) search.listing

theorem Formed.of_marks
    {session marked : Session}
    (h : session.Formed)
    (hmarks : Marks session marked) :
    marked.Formed := by
  refine ⟨?_, ?_⟩
  · intro id hid
    exact (h.staged id (hmarks.calls.size ▸ hid)).congr (fun other _ => hmarks.calls.plan other)
      (hmarks.calls.first id)
  · intro entry hentry
    rw [hmarks.calls.size]
    exact h.labels entry (hmarks.keeps.labels ▸ hentry)

/-- A clone is a new call for the plan of its original. -/
theorem Formed.clone_eq_add
    {session : Session}
    (h : session.Formed)
    {id : CallId}
    (hid : id < session.calls.size) :
    session.clone id = session.add (session.call id).plan := by
  rw [clone, Calls.clone_eq_add h.staged hid]
  rfl

theorem Formed.defineClone_eq_define
    {session : Session}
    (h : session.Formed)
    {id : CallId}
    (hid : id < session.calls.size)
    (label : String) :
    session.defineClone label id = session.define label (session.call id).plan := by
  rw [defineClone, h.clone_eq_add hid]
  rfl

theorem Formed.stageCall_cloneOf
    {session : Session}
    (h : session.Formed)
    (label : String) :
    session.stageCall (.cloneOf label) =
      (session.find label).bind fun id => session.stageCall (.fresh (session.call id).plan) := by
  rw [stageCall]
  cases hfind : session.find label with
  | error failure => rfl
  | ok id =>
      simp only [bind, Except.bind, pure, Except.pure, h.clone_eq_add (h.find_lt hfind), stageCall]

theorem exists_stageCall_of_bind
    {session : Session}
    {result : Except Failure (Stage Plan)}
    {chosen : CallId × Session}
    (h : result.bind session.stageCall = .ok chosen) :
    ∃ stage, result = .ok stage ∧ session.stageCall stage = .ok chosen := by
  cases result with
  | error failure => cases h
  | ok stage => exact ⟨stage, rfl, h⟩

/-- To choose a call changes nothing but the collection of calls. -/
theorem eq_of_stageCall
    {session : Session}
    {stage : Stage Plan}
    {chosen : CallId × Session}
    (hstage : session.stageCall stage = .ok chosen) :
    chosen.2 = { session with calls := chosen.2.calls } := by
  cases stage with
  | fresh plan =>
      cases hstage
      rfl
  | known label =>
      obtain ⟨id, _, hchosen⟩ := bind_eq_ok_iff.mp hstage
      cases hchosen
      rfl
  | cloneOf label =>
      obtain ⟨id, _, hchosen⟩ := bind_eq_ok_iff.mp hstage
      cases hchosen
      rfl

/-- A flat mapper's choice is a call that is known, or a new one: for a plan of its own, or for that
of a known call. -/
theorem stageCall_cases
    {session : Session}
    {stage : Stage Plan}
    {chosen : CallId × Session}
    (hformed : session.Formed)
    (hstage : session.stageCall stage = .ok chosen) :
    (∃ label id, stage = .known label ∧ session.find label = .ok id ∧ chosen = (id, session)) ∨
      ∃ plan, chosen.1 = (session.calls.add plan).2 ∧
        chosen.2.calls = (session.calls.add plan).1 ∧
        (stage = .fresh plan ∨ ∃ label id, stage = .cloneOf label ∧
          session.find label = .ok id ∧ plan = (session.call id).plan) := by
  cases stage with
  | fresh plan =>
      cases hstage
      exact Or.inr ⟨plan, rfl, rfl, Or.inl rfl⟩
  | known label =>
      obtain ⟨id, hfind, hchosen⟩ := bind_eq_ok_iff.mp hstage
      cases hchosen
      exact Or.inl ⟨label, id, rfl, hfind, rfl⟩
  | cloneOf label =>
      rw [hformed.stageCall_cloneOf] at hstage
      obtain ⟨id, hfind, hchosen⟩ := bind_eq_ok_iff.mp hstage
      cases hchosen
      exact Or.inr ⟨_, rfl, rfl, Or.inr ⟨label, id, rfl, hfind, rfl⟩⟩

/-- A flat mapper's choice is a call that exists, or one that was made for it. -/
theorem stageCall_eq_ok
    {session : Session}
    {stage : Stage Plan}
    {chosen : CallId × Session}
    (hformed : session.Formed)
    (hstage : session.stageCall stage = .ok chosen) :
    session.calls.Adds chosen.2.calls ∧ chosen.1 < chosen.2.calls.size := by
  rcases stageCall_cases hformed hstage with ⟨label, id, _, hfind, rfl⟩ | ⟨plan, hid, hcalls, _⟩
  · exact ⟨Calls.Adds.refl session.calls, hformed.find_lt hfind⟩
  · have hadded := Calls.added_add session.calls plan
    rw [hid, hcalls]
    exact ⟨hadded.adds, hadded.lt⟩

/-- What remains of a mapped call's body after its mapper has canceled calls. -/
theorem works_applyMapper
    (own : CallId)
    (session : Session)
    (mapper : Value → Mapping Value)
    (value : Value) :
    Works own (cancelAll (mapper value).cancels (session.note (.applied own))).2
      (session.applyMapper own mapper value) := by
  unfold applyMapper
  dsimp only
  rcases cancelAll (mapper value).cancels (session.note (.applied own)) with ⟨_ | _, after⟩
  · exact works_ends own after _
  · exact works_ends own after _

/-- What remains of a flat-mapped call's body after its mapper has canceled calls. -/
theorem works_applyFlatMapper
    {own : CallId}
    {session : Session}
    {first : Plan}
    {mapper : Value → Mapping (Stage Plan)}
    (hformed : session.Formed)
    (hown : own < session.calls.size)
    (hplan : (session.call own).plan = .flatMapped first mapper)
    (hflag : (session.call own).canceled = false)
    (value : Value) :
    Works own (cancelAll (mapper value).cancels (session.note (.applied own))).2
      (session.applyFlatMapper own mapper value) := by
  unfold applyFlatMapper
  rw [if_neg (by simp [hflag])]
  dsimp only
  have hmarks := marks_cancelAll (mapper value).cancels (session.note (.applied own))
  have hnoted : (session.note (.applied own)).Formed := ⟨hformed.staged, hformed.labels⟩
  rcases hresult : cancelAll (mapper value).cancels (session.note (.applied own)) with
    ⟨_ | _, marked⟩
  · exact works_ends own marked _
  · rw [hresult] at hmarks
    dsimp only
    cases hchosen : (mapper value).result.bind marked.stageCall with
    | error failure => exact works_ends own marked _
    | ok chosen =>
        obtain ⟨stage, _, hstage⟩ := exists_stageCall_of_bind hchosen
        obtain ⟨hadds, hlt⟩ := stageCall_eq_ok (hnoted.of_marks hmarks) hstage
        have hmarked : own < marked.calls.size := hmarks.calls.size ▸ hown
        have hgrows := (hadds.grows own).setNext hmarked chosen.1
        have hkeeps : Keeps marked chosen.2 ∧ chosen.2.starts = marked.starts := by
          rw [eq_of_stageCall hstage]
          exact ⟨⟨rfl, rfl, rfl, rfl, rfl, rfl⟩, rfl⟩
        refine ⟨⟨hkeeps.1.trans ⟨rfl, rfl, rfl, rfl, rfl, rfl⟩, hgrows, rfl, ⟨first, mapper, ?_⟩,
          ?_, ?_⟩, hkeeps.2⟩
        · exact (hgrows.plan own hmarked).trans ((hmarks.calls.plan own).trans hplan)
        · exact congrArg Call.next ((Calls.get_modify (Nat.lt_of_lt_of_le hmarked hadds.size) _
            own).trans (if_pos rfl))
        · exact Nat.lt_of_lt_of_eq hlt Array.size_modify.symm

theorem works_fetchListed
    {own : CallId}
    {session : Session}
    {search : TraceSearch}
    (hown : own < session.calls.size)
    (hplan : (session.call own).plan = .traceSearch search)
    (ids : List String) :
    Works own session (session.fetchListed own search ids) := by
  unfold fetchListed
  split
  · exact works_passPhase fun marked _ => works_ends own marked _
  · refine works_passPhase fun marked hmarks => ?_
    have hlt : own < marked.calls.size := hmarks.calls.size ▸ hown
    have hfits : (Frame.fetching own search ids).Fits (marked.call own).plan :=
      (hmarks.calls.plan own).trans hplan
    exact works_issue hlt rfl hfits (fun _ => rfl) (search.fetch ids)

theorem works_assembleFetched
    (own : CallId)
    (session : Session)
    (search : TraceSearch)
    (ids : List String)
    (spans : List Span) :
    Works own session (session.assembleFetched own search ids spans) := by
  unfold assembleFetched
  refine works_passPhase fun marked _ => ?_
  cases Trace.assemble search.criteria search.strict ids spans with
  | error error => exact works_failPhase own marked _
  | ok traces =>
      have hmarks := marks_enterPhase marked own .done
      dsimp only
      rcases hresult : marked.enterPhase own .done with ⟨_ | _, after⟩
      · rw [hresult] at hmarks
        exact hmarks.works trivial
      · rw [hresult] at hmarks
        exact hmarks.works trivial

/-- A frame that goes on with a value applies a mapper, unless the flat mapper's call was
canceled. -/
def Applies (session : Session) : Frame → Outcome → Prop
  | .mapped _ _, .ok _ => True
  | .first own _, .ok _ => (session.call own).canceled = false
  | _, _ => False

/-- What remains of a body after its mapper has canceled calls. -/
theorem works_of_applies
    {session : Session}
    {frame : Frame}
    {value : Value}
    (hformed : session.Formed)
    (hown : frame.call < session.calls.size)
    (hfits : frame.Fits (session.call frame.call).plan)
    (happlies : session.Applies frame (.ok value)) :
    Works frame.call (cancelAll (frame.cancels value) (session.note (.applied frame.call))).2
      (session.resume frame (.ok value)) := by
  cases frame with
  | mapped own mapper => exact works_applyMapper own session mapper value
  | first own mapper =>
      obtain ⟨first, hplan⟩ := hfits
      exact works_applyFlatMapper hformed hown hplan happlies value
  | _ => exact absurd happlies id

/-- Only an applied mapper starts anything when a body goes on. -/
theorem works_resume
    {session : Session}
    {frame : Frame}
    (hformed : session.Formed)
    (hown : frame.call < session.calls.size)
    (hfits : frame.Fits (session.call frame.call).plan)
    (outcome : Outcome) :
    (session.Applies frame outcome ∧
      Works frame.call (session.note (.applied frame.call)) (session.resume frame outcome)) ∨
    (¬ session.Applies frame outcome ∧
      Works frame.call session (session.resume frame outcome)) := by
  cases outcome with
  | error failure =>
      right
      refine ⟨by cases frame <;> exact id, ?_⟩
      cases frame with
      | listing own search => exact works_failPhase own session failure
      | fetching own search ids => exact works_failPhase own session failure
      | _ => exact works_ends _ session _
  | ok value =>
      cases frame with
      | leaf own recording =>
          right
          refine ⟨id, ?_⟩
          rw [resume]
          cases recording.failure with
          | none => exact works_ends own session _
          | some failure => exact works_ends own session _
      | reply own search reply => exact Or.inr ⟨id, works_ends own session _⟩
      | mapped own mapper =>
          refine Or.inl ⟨trivial, ?_⟩
          exact (marks_cancelAll _ _).trans_works (works_of_applies hformed hown hfits trivial)
      | first own mapper =>
          cases hflag : (session.call own).canceled with
          | false =>
              refine Or.inl ⟨hflag, ?_⟩
              exact (marks_cancelAll _ _).trans_works (works_of_applies hformed hown hfits hflag)
          | true =>
              right
              refine ⟨by simp [Applies, hflag], ?_⟩
              rw [resume, applyFlatMapper, if_pos hflag]
              exact works_ends own session _
      | next own => exact Or.inr ⟨id, works_ends own session _⟩
      | listing own search =>
          exact Or.inr ⟨id, works_fetchListed hown hfits value.texts⟩
      | fetching own search ids =>
          exact Or.inr ⟨id, works_assembleFetched own session search ids value.spans⟩

theorem piece_resume
    {session : Session}
    {frame : Frame}
    (hformed : session.Formed)
    (hown : frame.call < session.calls.size)
    (hfits : frame.Fits (session.call frame.call).plan)
    (outcome : Outcome) :
    Piece frame.call session (session.resume frame outcome) := by
  rcases works_resume hformed hown hfits outcome with ⟨_, hworks⟩ | ⟨_, hworks⟩
  · exact hworks.toPiece.of_note
  · exact hworks.toPiece

/-! ### Bodies of canceled calls -/

/-- A trace search issues a search only if it was not canceled. -/
theorem canceled_of_issue
    {own next : CallId}
    {session : Session}
    {search : Search}
    {frame frame' : Frame}
    (hown : own < session.calls.size)
    (hexecutes : (session.issue own search frame).1 = .executes next frame') :
    (session.call own).canceled = false ∧
      ((session.issue own search frame).2.call own).canceled = false := by
  unfold issue at hexecutes ⊢
  dsimp only at hexecutes ⊢
  cases hflag : (session.call own).canceled with
  | true =>
      rw [if_pos hflag] at hexecutes
      cases hexecutes
  | false =>
      rw [if_neg (by simp)]
      have hadded := Calls.added_add session.calls (.search search)
      have hlt := Nat.lt_of_lt_of_le hown hadded.adds.size
      have hget := (Calls.get_modify hlt (fun call => { call with
        next := some (session.calls.add (.search search)).2 }) own).trans (if_pos rfl)
      refine ⟨rfl, ?_⟩
      exact (congrArg Call.canceled hget).trans
        ((congrArg Call.canceled (hadded.adds.old own hown)).trans hflag)

theorem exists_of_passPhase_executes
    {own stage : CallId}
    {session : Session}
    {phase : SearchPhase}
    {next : Session → Progress × Session}
    {frame : Frame}
    (hexecutes : (session.passPhase own phase next).1 = .executes stage frame) :
    ∃ marked, Marks session marked ∧ session.passPhase own phase next = next marked := by
  have hmarks := marks_enterPhase session own phase
  unfold passPhase at hexecutes ⊢
  rcases hresult : session.enterPhase own phase with ⟨_ | _, after⟩
  · rw [hresult] at hexecutes
    cases hexecutes
  · rw [hresult] at hmarks
    exact ⟨after, hmarks, rfl⟩

/-- A trace search that executes a search has just seen that it was not canceled. -/
theorem canceled_of_passPhase_issue
    {own next : CallId}
    {session : Session}
    {phase : SearchPhase}
    {search : Search}
    {frame frame' : Frame}
    (hown : own < session.calls.size)
    (hexecutes : (session.passPhase own phase fun session => session.issue own search frame).1 =
      .executes next frame') :
    (session.call own).canceled = false ∧
      ((session.passPhase own phase fun session => session.issue own search frame).2.call
        own).canceled = false := by
  obtain ⟨marked, hmarks, heq⟩ := exists_of_passPhase_executes hexecutes
  rw [heq] at hexecutes ⊢
  have hmarked : own < marked.calls.size := hmarks.calls.size ▸ hown
  obtain ⟨hmiddle, hafter⟩ := canceled_of_issue hmarked hexecutes
  refine ⟨?_, hafter⟩
  cases hflag : (session.call own).canceled with
  | false => rfl
  | true => exact absurd (hmarks.calls.canceled own hflag) (by simpa [call] using hmiddle)

/-- A body that starts goes on to another call only if its own call is not canceled meanwhile. -/
theorem canceled_of_begin
    {own stage : CallId}
    {session : Session}
    {frame : Frame}
    (hown : own < session.calls.size)
    (hflag : (session.call own).canceled = false)
    (hexecutes : (session.begin own).1 = .executes stage frame) :
    ((session.begin own).2.call own).canceled = false := by
  unfold begin at hexecutes ⊢
  dsimp only at hexecutes ⊢
  cases hplan : (session.call own).plan with
  | traceSearch search =>
      simp only [hplan] at hexecutes
      exact (canceled_of_passPhase_issue hown hexecutes).2
  | mapped first mapper => exact hflag
  | flatMapped first mapper => exact hflag
  | constant value => simp [hplan] at hexecutes
  | recording leaf => simp [hplan] at hexecutes
  | search search => simp [hplan] at hexecutes

/-- A body that goes on goes to another call only if its own call was not canceled; only a flat
mapper may cancel it meanwhile. -/
theorem canceled_of_resume
    {stage : CallId}
    {session : Session}
    {frame frame' : Frame}
    {outcome : Outcome}
    (hown : frame.call < session.calls.size)
    (hexecutes : (session.resume frame outcome).1 = .executes stage frame') :
    (session.call frame.call).canceled = false ∧
      ((∃ mapper value, frame = .first frame.call mapper ∧ outcome = .ok value) ∨
        ((session.resume frame outcome).2.call frame.call).canceled = false) := by
  cases outcome with
  | error failure => cases frame <;> cases hexecutes
  | ok value =>
      cases frame with
      | leaf own recording =>
          rw [resume] at hexecutes
          cases hfailure : recording.failure <;> simp [hfailure] at hexecutes
      | reply own search reply => cases hexecutes
      | next own => cases hexecutes
      | mapped own mapper =>
          rw [resume, applyMapper] at hexecutes
          split at hexecutes <;> cases hexecutes
      | first own mapper =>
          refine ⟨?_, Or.inl ⟨mapper, value, rfl, rfl⟩⟩
          cases hflag : (session.call own).canceled with
          | false => exact hflag
          | true =>
              rw [resume, applyFlatMapper, if_pos hflag] at hexecutes
              cases hexecutes
      | listing own search =>
          rw [resume, fetchListed] at hexecutes ⊢
          split at hexecutes
          · obtain ⟨marked, _, heq⟩ := exists_of_passPhase_executes hexecutes
            rw [heq] at hexecutes
            cases hexecutes
          · obtain ⟨hbefore, hafter⟩ := canceled_of_passPhase_issue hown hexecutes
            rename_i hids
            rw [if_neg hids]
            exact ⟨hbefore, Or.inr hafter⟩
      | fetching own search ids =>
          rw [resume, assembleFetched] at hexecutes
          obtain ⟨marked, _, heq⟩ := exists_of_passPhase_executes hexecutes
          rw [heq] at hexecutes
          split at hexecutes
          · cases hexecutes
          · split at hexecutes <;> cases hexecutes

end Session
end TraceArchive
