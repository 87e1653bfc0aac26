import TraceArchive.Proofs.Session.Arrangement
import TraceArchive.Proofs.Session.Stopping

/-!
# The searches that a trace search sends

A trace search issues its searches as calls of their own, and each of them reaches the backend when
its body begins.

* `issued`, `sent`: the searches of a trace search that were issued, and those that have reached the
  backend.
* `Sends`, `sends_of_reachable`: those that have reached it did so in the order in which they were
  issued.
* `sent_isPrefixOf_issued`: one after the other, and each at most once.
* `IsPaused`, `sent_eq_issued_of_isPaused`: while a trace search waits, all that it has issued has
  been sent.
* `IsOver`, `isOver_of_stages`: when nothing more is issued or sent.
-/

set_option autoImplicit false

namespace TraceArchive

/-- The search that a plan is for. -/
def Plan.search? : Plan → Option Search
  | .search asked => some asked
  | _ => none

/-- The search with which one of some calls has reached the backend. -/
def Observation.asked? (calls : List CallId) : Observation → Option Search
  | .searched own asked => if own ∈ calls then some asked else none
  | _ => none

/-- A call has reached the backend. -/
def Observation.isSearchOf (own : CallId) : Observation → Bool
  | .searched call _ => call = own
  | _ => false

theorem Observation.asked?_of_not_isSearched
    {entry : Observation}
    (h : entry.isSearched = false)
    (calls : List CallId) :
    entry.asked? calls = none := by
  cases entry with
  | searched own asked => cases h
  | _ => rfl

theorem Observation.not_isSearchOf_of_not_isSearched
    {entry : Observation}
    (h : entry.isSearched = false)
    (own : CallId) :
    entry.isSearchOf own = false := by
  cases entry with
  | searched call asked => cases h
  | _ => rfl

namespace Session

/-- The search that a call is for. -/
def search? (session : Session) (id : CallId) : Option Search :=
  (session.call id).plan.search?

/-- The searches that a trace search has issued, the first one first. -/
def issued (session : Session) (id : CallId) : List Search :=
  (session.stages id).filterMap session.search?

/-- The searches that have reached the backend from the calls that a trace search has issued, the
first one first. -/
def sent (session : Session) (id : CallId) : List Search :=
  (session.history.filterMap (Observation.asked? (session.stages id))).reverse

/-- A call has reached the backend. -/
def hasAsked (session : Session) (own : CallId) : Bool :=
  session.history.any (Observation.isSearchOf own)

theorem search?_of_plan
    {session : Session}
    {id : CallId}
    {asked : Search}
    (h : (session.call id).plan = .search asked) :
    session.search? id = some asked := by
  rw [search?, h, Plan.search?]

theorem hasAsked_iff
    {session : Session}
    {own : CallId} :
    session.hasAsked own = true ↔ ∃ asked, .searched own asked ∈ session.history := by
  rw [hasAsked, List.any_eq_true]
  constructor
  · rintro ⟨entry, hentry, hown⟩
    cases entry with
    | searched call asked =>
        cases of_decide_eq_true hown
        exact ⟨asked, hentry⟩
    | _ => cases hown
  · rintro ⟨asked, hentry⟩
    exact ⟨_, hentry, decide_eq_true rfl⟩

theorem Answered.hasAsked
    {session : Session}
    {own : CallId}
    {asked : Search}
    {reply : Reply}
    (h : session.Answered own asked reply) :
    session.hasAsked own = true := by
  obtain ⟨newer, older, hhistory, _⟩ := h
  refine hasAsked_iff.mpr ⟨asked, ?_⟩
  rw [hhistory]
  exact List.mem_append_right newer List.mem_cons_self

/-- Whatever has reached the backend is the search of a call that has begun, and the searches of
every trace search have reached it in the order in which they were issued. -/
structure Sends (session : Session) : Prop where
  asked : ∀ own asked, .searched own asked ∈ session.history →
    (session.call own).plan = .search asked ∧ (session.call own).state ≠ .new
  order : ∀ id search, (session.call id).plan = .traceSearch search →
    session.sent id = ((session.stages id).filter session.hasAsked).filterMap session.search?

/-- Only calls that exist have reached the backend. -/
theorem Sends.lt_size
    {session : Session}
    {own : CallId}
    (h : session.Sends)
    (hasked : session.hasAsked own = true) :
    own < session.calls.size := by
  obtain ⟨asked, hentry⟩ := hasAsked_iff.mp hasked
  by_cases hown : own < session.calls.size
  · exact hown
  · exact absurd (state_of_size_le (Nat.not_lt.mp hown)) (h.asked own asked hentry).2

theorem Sends.hasAsked_eq_false_of_new
    {session : Session}
    {own : CallId}
    (h : session.Sends)
    (hnew : (session.call own).state = .new) :
    session.hasAsked own = false := by
  refine Bool.eq_false_iff.mpr fun hasked => ?_
  obtain ⟨asked, hentry⟩ := hasAsked_iff.mp hasked
  exact (h.asked own asked hentry).2 hnew

/-! ### Moves -/

section Moves

variable {own : CallId} {told : List Observation} {session after : Session}

theorem Extends.stages_eq
    (h : Extends own told session after)
    (id : CallId) :
    after.stages id = session.stages id ++ (told.filterMap (Observation.stage? id)).reverse := by
  rw [stages, h.history, List.filterMap_append, List.reverse_append, stages]

/-- The stages that are told of quietly are new calls. -/
theorem IsQuiet.size_le
    (h : session.IsQuiet told)
    {id stage : CallId}
    (hstage : stage ∈ (told.filterMap (Observation.stage? id)).reverse) :
    session.calls.size ≤ stage := by
  obtain ⟨entry, hentry, hsome⟩ := List.mem_filterMap.mp (List.mem_reverse.mp hstage)
  cases entry with
  | issued call issued =>
      rw [Observation.stage?] at hsome
      split at hsome
      · cases hsome
        exact (h _ hentry).2 call stage rfl
      · cases hsome
  | _ => cases hsome

theorem IsQuiet.hasAsked_eq
    (h : session.IsQuiet told)
    (hextends : Extends own told session after) :
    after.hasAsked = session.hasAsked := by
  funext id
  have hnone : told.any (Observation.isSearchOf id) = false :=
    List.any_eq_false.mpr fun entry hentry => by
      simp [Observation.not_isSearchOf_of_not_isSearched (h entry hentry).1]
  rw [hasAsked, hextends.history, List.any_append, hnone, Bool.false_or, hasAsked]

/-- What has reached the backend is not changed by what is told quietly. -/
theorem Sends.sent_of_isQuiet
    (h : session.Sends)
    (hextends : Extends own told session after)
    (hquiet : session.IsQuiet told)
    (id : CallId) :
    after.sent id = session.sent id := by
  have hnone : told.filterMap (Observation.asked? (after.stages id)) = [] :=
    List.filterMap_eq_nil_iff.mpr fun entry hentry =>
      Observation.asked?_of_not_isSearched (hquiet entry hentry).1 _
  have hsame : session.history.filterMap (Observation.asked? (after.stages id)) =
      session.history.filterMap (Observation.asked? (session.stages id)) := by
    refine List.filterMap_congr fun entry hentry => ?_
    cases entry with
    | searched call asked =>
        have hlt := h.lt_size (hasAsked_iff.mpr ⟨asked, hentry⟩)
        have hmem : call ∈ after.stages id ↔ call ∈ session.stages id := by
          rw [hextends.stages_eq, List.mem_append]
          refine or_iff_left fun hfresh => ?_
          exact absurd hlt (Nat.not_lt.mpr (hquiet.size_le hfresh))
        simp only [Observation.asked?, hmem]
    | _ => rfl
  rw [sent, hextends.history, List.filterMap_append, hnone, List.nil_append, hsame, sent]

theorem Sends.search?_eq
    (h : session.Sends)
    (hextends : Extends own told session after)
    {id : CallId}
    (hasked : session.hasAsked id = true) :
    after.search? id = session.search? id := by
  obtain ⟨asked, hentry⟩ := hasAsked_iff.mp hasked
  have hplan := (h.asked id asked hentry).1
  rw [search?_of_plan hplan, search?_of_plan (hextends.plan_eq_search hplan)]

/-- The order of a trace search that has issued nothing. -/
theorem order_of_stages_eq_nil
    {id : CallId}
    (h : session.stages id = []) :
    session.sent id = ((session.stages id).filter session.hasAsked).filterMap session.search? := by
  have hnone : session.history.filterMap (Observation.asked? []) = [] :=
    List.filterMap_eq_nil_iff.mpr fun entry _ => by
      cases entry with
      | searched call asked => simp [Observation.asked?]
      | _ => rfl
  rw [sent, h, hnone]
  rfl

/-- A quiet move keeps the order in which searches reach the backend. -/
theorem Sends.of_isQuiet
    (h : session.Sends)
    (hrecorded : session.Recorded)
    (hextends : Extends own told session after)
    (hquiet : session.IsQuiet told)
    (hstate : ∀ id, (session.call id).state ≠ .new → (after.call id).state ≠ .new) :
    after.Sends := by
  refine ⟨fun id asked hentry => ?_, fun id search hplan => ?_⟩
  · rw [hextends.history] at hentry
    rcases List.mem_append.mp hentry with htold | hold
    · cases (hquiet _ htold).1
    · obtain ⟨hplan, hbegun⟩ := h.asked id asked hold
      exact ⟨hextends.plan_eq_search hplan, hstate id hbegun⟩
  · have hfresh : (told.filterMap (Observation.stage? id)).reverse.filter session.hasAsked = [] :=
      List.filter_eq_nil_iff.mpr fun stage hstage hasked =>
        absurd (h.lt_size hasked) (Nat.not_lt.mpr (hquiet.size_le hstage))
    have hfilter : (after.stages id).filter after.hasAsked =
        (session.stages id).filter session.hasAsked := by
      rw [hextends.stages_eq, hquiet.hasAsked_eq hextends, List.filter_append, hfresh,
        List.append_nil]
    have hsearches : ((session.stages id).filter session.hasAsked).filterMap after.search? =
        ((session.stages id).filter session.hasAsked).filterMap session.search? :=
      List.filterMap_congr fun stage hstage =>
        h.search?_eq hextends (List.mem_filter.mp hstage).2
    rw [h.sent_of_isQuiet hextends hquiet, hfilter, hsearches]
    by_cases hid : id < session.calls.size
    · exact h.order id search ((hextends.plan id hid).symm.trans hplan)
    · exact order_of_stages_eq_nil (hrecorded.untouched id (state_of_size_le (Nat.not_lt.mp hid)))

/-- A new call is the last that a trace search has issued, if it has issued it. -/
theorem Course.exists_eq_append_of_new
    {search : TraceSearch}
    {stages : List CallId}
    (h : session.Course search stages)
    (htallied : ∀ id, session.Tallied id)
    (hnew : (session.call own).state = .new)
    (hmem : own ∈ stages) :
    ∃ front, stages = front ++ [own] ∧ own ∉ front := by
  cases h with
  | none => exact absurd hmem List.not_mem_nil
  | listing hfirst =>
      cases List.mem_singleton.mp hmem
      exact ⟨[], rfl, List.not_mem_nil⟩
  | @fetching first second given hfirst hgiven hids hsecond =>
      have hne : own ≠ first := by
        rintro rfl
        have hfinal := (htallied own).isFinal_of_concluded hgiven
        rw [hnew] at hfinal
        cases hfinal
      rcases List.mem_cons.mp hmem with rfl | hlast
      · exact absurd rfl hne
      · cases List.mem_singleton.mp hlast
        exact ⟨[first], rfl, by simpa using hne⟩

theorem stages_of_searched
    {asked : Search}
    (h : Extends own [.searched own asked, .began own] session after)
    (id : CallId) :
    after.stages id = session.stages id :=
  stages_of_history_eq h.history (by simp [Observation.stage?])

theorem sent_of_searched
    {asked : Search}
    (h : Extends own [.searched own asked, .began own] session after)
    (id : CallId) :
    after.sent id = session.sent id ++ (if own ∈ session.stages id then [asked] else []) := by
  have hbegan : (Observation.began own).asked? (session.stages id) = none := rfl
  rw [sent, h.history, stages_of_searched h, List.cons_append, List.cons_append, List.nil_append]
  by_cases hissued : own ∈ session.stages id
  · have hsome : (Observation.searched own asked).asked? (session.stages id) = some asked :=
      if_pos hissued
    rw [List.filterMap_cons_some hsome, List.filterMap_cons_none hbegan, List.reverse_cons,
      if_pos hissued, sent]
  · have hnone : (Observation.searched own asked).asked? (session.stages id) = none :=
      if_neg hissued
    rw [List.filterMap_cons_none hnone, List.filterMap_cons_none hbegan, if_neg hissued,
      List.append_nil, sent]

theorem hasAsked_of_searched
    {asked : Search}
    (h : Extends own [.searched own asked, .began own] session after)
    (id : CallId) :
    after.hasAsked id = (decide (own = id) || session.hasAsked id) := by
  rw [hasAsked, h.history]
  simp [Observation.isSearchOf, hasAsked]

/-- The searches of the other calls that have reached the backend. -/
theorem Sends.filterMap_of_searched
    {asked : Search}
    (h : session.Sends)
    (hextends : Extends own [.searched own asked, .began own] session after)
    {stages : List CallId}
    (hother : own ∉ stages) :
    (stages.filter after.hasAsked).filterMap after.search? =
      (stages.filter session.hasAsked).filterMap session.search? := by
  have hsame : stages.filter after.hasAsked = stages.filter session.hasAsked := by
    refine List.filter_congr fun stage hstage => ?_
    have hne : own ≠ stage := fun heq => hother (heq ▸ hstage)
    rw [hasAsked_of_searched hextends, decide_eq_false hne, Bool.false_or]
  rw [hsame]
  exact List.filterMap_congr fun stage hstage =>
    h.search?_eq hextends (List.mem_filter.mp hstage).2

/-- A search that reaches the backend is the next one in order. -/
theorem Sends.order_of_searched
    {asked : Search}
    {id : CallId}
    {search : TraceSearch}
    (h : session.Sends)
    (hcourse : session.Course search (session.stages id))
    (htallied : ∀ id, session.Tallied id)
    (hextends : Extends own [.searched own asked, .began own] session after)
    (hnew : (session.call own).state = .new)
    (hplan : (session.call own).plan = .search asked)
    (horder : session.sent id =
      ((session.stages id).filter session.hasAsked).filterMap session.search?) :
    after.sent id = ((after.stages id).filter after.hasAsked).filterMap after.search? := by
  rw [sent_of_searched hextends, horder, stages_of_searched hextends]
  by_cases hissued : own ∈ session.stages id
  · obtain ⟨front, hfront, hother⟩ := hcourse.exists_eq_append_of_new htallied hnew hissued
    have hself : after.hasAsked own = true := by
      rw [hasAsked_of_searched hextends, decide_eq_true rfl, Bool.true_or]
    have hbefore := h.hasAsked_eq_false_of_new hnew
    rw [if_pos hissued, hfront, List.filter_append, List.filter_append, List.filterMap_append,
      List.filterMap_append, h.filterMap_of_searched hextends hother]
    simp [hself, hbefore, search?_of_plan (hextends.plan_eq_search hplan)]
  · rw [if_neg hissued, List.append_nil, h.filterMap_of_searched hextends hissued]

/-- A move in which a search reaches the backend keeps the order in which they do. -/
theorem Sends.of_searched
    {asked : Search}
    (h : session.Sends)
    (hrecorded : session.Recorded)
    (htallied : ∀ id, session.Tallied id)
    (hextends : Extends own [.searched own asked, .began own] session after)
    (hnew : (session.call own).state = .new)
    (hplan : (session.call own).plan = .search asked)
    (hstate : ∀ id, (session.call id).state ≠ .new → (after.call id).state ≠ .new)
    (hown : (after.call own).state ≠ .new) :
    after.Sends := by
  refine ⟨fun id search hentry => ?_, fun id search hsearch => ?_⟩
  · rw [hextends.history] at hentry
    rcases List.mem_cons.mp hentry with hsame | hentry
    · cases hsame
      exact ⟨hextends.plan_eq_search hplan, hown⟩
    · rcases List.mem_cons.mp hentry with hsame | hold
      · cases hsame
      · obtain ⟨hsearch, hbegun⟩ := h.asked id search hold
        exact ⟨hextends.plan_eq_search hsearch, hstate id hbegun⟩
  · by_cases hid : id < session.calls.size
    · have hearlier := (hextends.plan id hid).symm.trans hsearch
      exact h.order_of_searched (hrecorded.course id search hearlier) htallied hextends hnew hplan
        (h.order id search hearlier)
    · have hnil := hrecorded.untouched id (state_of_size_le (Nat.not_lt.mp hid))
      exact order_of_stages_eq_nil ((stages_of_searched hextends id).trans hnil)

theorem sends_of_move
    (h : session.Sends)
    (hreachable : session.Reachable)
    (hmove : Move session after) :
    after.Sends := by
  have hsound := sound_of_reachable hreachable
  have hrecorded := recorded_of_reachable hreachable
  have hstate : ∀ id, (session.call id).state ≠ .new → (after.call id).state ≠ .new :=
    fun id hbegun hnew =>
      CallState.not_leads_new hbegun (hnew ▸ (ages_of_move hsound hmove id).leads)
  obtain ⟨own, told, hextends, hquiet | ⟨asked, rfl, hnew, hplan⟩⟩ := extends_of_move hsound hmove
  · exact h.of_isQuiet hrecorded hextends hquiet hstate
  · refine h.of_searched hrecorded (tallied_of_reachable hreachable) hextends hnew hplan hstate ?_
    intro hafter
    have htallied := tallied_of_reachable (hreachable.of_move hmove) own
    have hbegun : 0 < after.beginnings own := by
      rw [(hextends.counts own).1]
      exact Nat.add_pos_left (by simp [Observation.begins]) _
    rw [Tallied, hafter] at htallied
    generalize after.beginnings own = begun at htallied hbegun
    generalize after.endings own = ended at htallied
    cases htallied with
    | new => cases hbegun
    | ended hfinal => cases hfinal

/-- In every session, searches reach the backend in the order in which they were issued. -/
theorem sends_of_reachable
    (h : session.Reachable) :
    session.Sends := by
  have hboth : session.Reachable ∧ session.Sends := by
    refine h.induct (motive := fun session => session.Reachable ∧ session.Sends) ?_ ?_
    · refine fun backend => ⟨⟨backend, .refl⟩, ?_, ?_⟩
      · exact fun own asked hentry => absurd hentry List.not_mem_nil
      · exact fun id search _ => rfl
    · rintro session after ⟨hreachable, hsends⟩ hmove
      exact ⟨hreachable.of_move hmove, sends_of_move hsends hreachable hmove⟩
  exact hboth.2

end Moves

/-! ### In every session -/

/-- The backend has listed trace IDs for a trace search. -/
def Lists (session : Session) (id : CallId) (search : TraceSearch) (ids : List String) : Prop :=
  ∃ stage reply body, (session.stages id).head? = some stage ∧
    session.Answered stage search.listing reply ∧ reply.result = .ok body ∧
      Response.traceIds body = .ok ids

/-- The first search that a trace search issues is its listing, and the second and last one is the
fetch of the traces that were listed. -/
theorem issued_cases
    {session : Session}
    {id : CallId}
    {search : TraceSearch}
    (h : session.Recorded)
    (hplan : (session.call id).plan = .traceSearch search) :
    session.issued id = [] ∨ session.issued id = [search.listing] ∨
      ∃ ids, ids ≠ [] ∧ session.Lists id search ids ∧
        session.issued id = [search.listing, search.fetch ids] := by
  have hcourse := h.course id search hplan
  rw [issued]
  generalize hstages : session.stages id = stages at hcourse ⊢
  cases hcourse with
  | none => exact Or.inl rfl
  | listing hfirst =>
      right
      left
      rw [List.filterMap_cons_some (search?_of_plan hfirst), List.filterMap_nil]
  | @fetching first second given hfirst hgiven hids hsecond =>
      right
      right
      obtain ⟨reply, body, hanswered, hbody, hread⟩ := answer_of_concluded h hfirst hgiven
      have hhead : (session.stages id).head? = some first := by rw [hstages, List.head?_cons]
      refine ⟨given.texts, hids, ⟨first, reply, body, hhead, hanswered, hbody,
        traceIds_of_read hread⟩, ?_⟩
      rw [List.filterMap_cons_some (search?_of_plan hfirst),
        List.filterMap_cons_some (search?_of_plan hsecond), List.filterMap_nil]

/-- The searches of a trace search reach the backend one after the other, as they were issued, and
each at most once. -/
theorem sent_isPrefixOf_issued
    {session : Session}
    {id : CallId}
    {search : TraceSearch}
    (h : session.Reachable)
    (hplan : (session.call id).plan = .traceSearch search) :
    session.sent id <+: session.issued id := by
  have hrecorded := recorded_of_reachable h
  have hcourse := hrecorded.course id search hplan
  rw [(sends_of_reachable h).order id search hplan, issued]
  apply List.IsPrefix.filterMap
  generalize session.stages id = stages at hcourse
  cases hcourse with
  | none => exact List.prefix_rfl
  | @listing first hfirst =>
      rw [List.filter_singleton]
      cases session.hasAsked first with
      | false => exact List.nil_prefix
      | true => exact List.prefix_rfl
  | @fetching first second given hfirst hgiven hids hsecond =>
      obtain ⟨_, _, hanswered, _⟩ := answer_of_concluded hrecorded hfirst hgiven
      rw [List.filter_cons_of_pos hanswered.hasAsked, List.filter_singleton]
      refine (List.prefix_cons_inj first).mpr ?_
      cases session.hasAsked second with
      | false => exact List.nil_prefix
      | true => exact List.prefix_rfl

/-- A frame of a stack waits for the call that the stack serves, or for that of another frame. -/
theorem exists_awaits_of_serves
    {calls : Calls}
    {own : CallId}
    {stack : List Frame}
    {frame : Frame}
    (h : calls.Serves own stack)
    (hframe : frame ∈ stack) :
    ∃ stage, frame.awaits calls = some stage ∧ (stage = own ∨ Calls.OnStack stage stack) := by
  induction stack generalizing own with
  | nil => exact absurd hframe List.not_mem_nil
  | cons top rest ih =>
      rcases List.mem_cons.mp hframe with rfl | hrest
      · exact ⟨own, h.1, Or.inl rfl⟩
      · obtain ⟨stage, hawaits, hstage⟩ := ih h.2 hrest
        refine ⟨stage, hawaits, Or.inr (Calls.onStack_cons.mpr ?_)⟩
        exact hstage.imp_left Eq.symm

/-- While a task waits, the topmost frame of its stack waits for no other call. -/
theorem Steady.exists_leaf
    {session : Session}
    {task : TaskId}
    (h : session.Steady)
    (hstate : (session.task task).state ≠ .running)
    (hne : (session.task task).stack ≠ []) :
    ∃ top rest, (session.task task).stack = top :: rest ∧ top.IsLeaf := by
  have hpoised := h.poised task
  rw [Task.IsPoised] at hpoised
  split at hpoised
  · exact absurd hpoised hne
  · exact absurd hpoised hne
  · exact absurd hpoised hne
  · rename_i hrunning
    exact absurd hrunning hstate
  · exact hpoised
  · exact hpoised
  · exact hpoised

/-- While a task waits, the calls that its frames wait for are on its stack. -/
theorem Steady.onStack_of_awaits
    {session : Session}
    {task : TaskId}
    {frame : Frame}
    {stage : CallId}
    (h : session.Steady)
    (hframe : frame ∈ (session.task task).stack)
    (hstate : (session.task task).state ≠ .running)
    (hawaits : frame.awaits session.calls = some stage) :
    Calls.OnStack stage (session.task task).stack := by
  obtain ⟨top, rest, hstack, hleaf⟩ := h.exists_leaf hstate (List.ne_nil_of_mem hframe)
  have hchained := (h.framesHold task).chained top rest hstack
  rw [hstack] at hframe ⊢
  rcases List.mem_cons.mp hframe with rfl | hrest
  · rw [hleaf.awaits] at hawaits
    cases hawaits
  · obtain ⟨other, hother, hbelow⟩ := exists_awaits_of_serves hchained hrest
    cases hother.symm.trans hawaits
    exact Calls.onStack_cons.mpr (hbelow.imp_left Eq.symm)

/-- A search that is on a stack has reached the backend. -/
theorem hasAsked_of_onStack
    {session : Session}
    {task : TaskId}
    {stage : CallId}
    {asked : Search}
    (h : session.Recorded)
    (hsteady : session.Steady)
    (hplan : (session.call stage).plan = .search asked)
    (honStack : Calls.OnStack stage (session.task task).stack) :
    session.hasAsked stage = true := by
  obtain ⟨frame, hframe, rfl⟩ := honStack
  have hfits := ((hsteady.framesHold task).holds frame hframe).2.2
  rw [← call, hplan] at hfits
  obtain ⟨own, reply, rfl⟩ := hfits.of_search
  exact Answered.hasAsked (h.backed task _ hframe)

/-- While a trace search waits, it has issued a search, and the last one has reached the backend. -/
theorem exists_last_of_onStack
    {session : Session}
    {task : TaskId}
    {id : CallId}
    {search : TraceSearch}
    (h : session.Recorded)
    (hsteady : session.Steady)
    (hplan : (session.call id).plan = .traceSearch search)
    (honStack : Calls.OnStack id (session.task task).stack)
    (hstate : (session.task task).state ≠ .running) :
    ∃ last, (session.stages id).getLast? = some last ∧ session.hasAsked last = true := by
  obtain ⟨frame, hframe, rfl⟩ := honStack
  have hfits := ((hsteady.framesHold task).holds frame hframe).2.2
  have hbacked := h.backed task frame hframe
  have hcourse := h.course frame.call search hplan
  rw [← call, hplan] at hfits
  rcases hfits.of_traceSearch with ⟨own, rfl⟩ | ⟨own, ids, rfl⟩
  · obtain ⟨stage, hstages, hnext⟩ := hbacked
    refine ⟨stage, congrArg List.getLast? hstages, ?_⟩
    rw [Frame.call, hstages] at hcourse
    cases hcourse with
    | listing hfirst =>
        exact hasAsked_of_onStack h hsteady hfirst (hsteady.onStack_of_awaits hframe hstate hnext)
  · obtain ⟨earlier, stage, hstages, hnext, hfetch⟩ := hbacked
    exact ⟨stage, congrArg List.getLast? hstages,
      hasAsked_of_onStack h hsteady hfetch (hsteady.onStack_of_awaits hframe hstate hnext)⟩

/-- When the last search that was issued has reached the backend, all have. -/
theorem sent_eq_issued_of_hasAsked
    {session : Session}
    {id last : CallId}
    {search : TraceSearch}
    (h : session.Reachable)
    (hplan : (session.call id).plan = .traceSearch search)
    (hgetLast : (session.stages id).getLast? = some last)
    (hlast : session.hasAsked last = true) :
    session.sent id = session.issued id := by
  have hrecorded := recorded_of_reachable h
  have hcourse := hrecorded.course id search hplan
  rw [(sends_of_reachable h).order id search hplan, issued]
  congr 1
  refine List.filter_eq_self.mpr fun stage hstage => ?_
  generalize session.stages id = stages at hcourse hgetLast hstage
  cases hcourse with
  | none => exact absurd hstage List.not_mem_nil
  | listing hfirst =>
      cases List.mem_singleton.mp hstage
      have hsame : stage = last := Option.some.inj hgetLast
      exact hsame ▸ hlast
  | fetching hfirst hgiven hids hsecond =>
      rcases List.mem_cons.mp hstage with rfl | hmem
      · obtain ⟨_, _, hanswered, _⟩ := answer_of_concluded hrecorded hfirst hgiven
        exact hanswered.hasAsked
      · cases List.mem_singleton.mp hmem
        have hsame : stage = last := Option.some.inj hgetLast
        exact hsame ▸ hlast

/-- The execution of a call waits: no task is running, and one of them is to go on with it. -/
def IsPaused (session : Session) (id : CallId) : Prop :=
  session.IsIdle ∧ ∃ task, Calls.OnStack id (session.task task).stack

/-- While a trace search waits, all that it has issued has reached the backend. -/
theorem sent_eq_issued_of_isPaused
    {session : Session}
    {id : CallId}
    {search : TraceSearch}
    (h : session.Reachable)
    (hplan : (session.call id).plan = .traceSearch search)
    (hpaused : session.IsPaused id) :
    session.sent id = session.issued id := by
  obtain ⟨hidle, task, honStack⟩ := hpaused
  obtain ⟨last, hgetLast, hlast⟩ := exists_last_of_onStack (recorded_of_reachable h)
    (sound_of_reachable h).steady hplan honStack (not_running_of_isIdle h hidle task)
  exact sent_eq_issued_of_hasAsked h hplan hgetLast hlast

/-! ### Runs -/

section Runs

variable {session after : Session} {id : CallId}

/-- The plan of a call stays. -/
theorem plan_eq_of_run
    {plan : Plan}
    (h : session.Reachable)
    (hrun : Run session after)
    (hplan : (session.call id).plan = plan)
    (hne : plan ≠ (default : Call).plan) :
    (after.call id).plan = plan :=
  (plan_of_run h hrun (lt_size_of_plan_ne (hplan.symm ▸ hne))).trans hplan

/-- The searches that were issued stay, and others may only follow. -/
theorem stages_isPrefixOf_of_run
    (h : session.Reachable)
    (hrun : Run session after)
    (id : CallId) :
    session.stages id <+: after.stages id := by
  induction hrun with
  | refl => exact List.prefix_rfl
  | tail hearlier hlast ih =>
      obtain ⟨own, told, hextends, _⟩ :=
        extends_of_move (sound_of_reachable (h.of_run hearlier)) hlast
      rw [hextends.stages_eq]
      exact ih.trans (List.prefix_append _ _)

theorem sent_isPrefixOf_of_run
    (h : session.Reachable)
    (hrun : Run session after)
    (id : CallId) :
    session.sent id <+: after.sent id := by
  induction hrun with
  | refl => exact List.prefix_rfl
  | tail hearlier hlast ih =>
      have hreachable := h.of_run hearlier
      obtain ⟨own, told, hextends, hquiet | ⟨asked, rfl, _⟩⟩ :=
        extends_of_move (sound_of_reachable hreachable) hlast
      · rw [(sends_of_reachable hreachable).sent_of_isQuiet hextends hquiet]
        exact ih
      · rw [sent_of_searched hextends]
        exact ih.trans (List.prefix_append _ _)

/-- What was issued stays as it was issued. -/
theorem filterMap_search?_of_run
    {search : TraceSearch}
    (h : session.Reachable)
    (hrun : Run session after)
    (hplan : (session.call id).plan = .traceSearch search) :
    (session.stages id).filterMap after.search? = session.issued id := by
  have hcourse := (recorded_of_reachable h).course id search hplan
  have hsame : ∀ {stage : CallId} {asked : Search}, (session.call stage).plan = .search asked →
      after.search? stage = session.search? stage := fun hstage => by
    have hafter := plan_eq_of_run h hrun hstage (search_ne_default _)
    rw [search?_of_plan hstage, search?_of_plan hafter]
  refine List.filterMap_congr fun stage hstage => ?_
  generalize session.stages id = stages at hcourse hstage
  cases hcourse with
  | none => exact absurd hstage List.not_mem_nil
  | listing hfirst =>
      cases List.mem_singleton.mp hstage
      exact hsame hfirst
  | fetching hfirst hgiven hids hsecond =>
      rcases List.mem_cons.mp hstage with rfl | hmem
      · exact hsame hfirst
      · cases List.mem_singleton.mp hmem
        exact hsame hsecond

theorem issued_isPrefixOf_of_run
    {search : TraceSearch}
    (h : session.Reachable)
    (hrun : Run session after)
    (hplan : (session.call id).plan = .traceSearch search) :
    session.issued id <+: after.issued id := by
  rw [← filterMap_search?_of_run h hrun hplan]
  exact (stages_isPrefixOf_of_run h hrun id).filterMap _

/-- From a later session on, nothing more is issued for a trace search, and nothing more is sent if
all that was issued had been sent. -/
def IsOver (session later : Session) (id : CallId) : Prop :=
  ∀ after, Run later after → after.issued id = session.issued id ∧
    (session.sent id = session.issued id → after.sent id = session.sent id)

/-- It is over for a trace search when no further calls are made for it. -/
theorem isOver_of_stages
    {later : Session}
    {search : TraceSearch}
    (h : session.Reachable)
    (hlater : Run session later)
    (hplan : (session.call id).plan = .traceSearch search)
    (hstages : ∀ after, Run later after → after.stages id = session.stages id) :
    IsOver session later id := by
  intro after hafter
  have hrun := hlater.trans hafter
  have hissued : after.issued id = session.issued id := by
    rw [issued, hstages after hafter]
    exact filterMap_search?_of_run h hrun hplan
  refine ⟨hissued, fun hsent => ?_⟩
  have hafter := plan_eq_of_run h hrun hplan (traceSearch_ne_default search)
  have hlast := sent_isPrefixOf_issued (h.of_run hrun) hafter
  rw [hissued, ← hsent] at hlast
  exact hlast.eq_of_length_le (sent_isPrefixOf_of_run h hrun id).length_le

end Runs
end Session
end TraceArchive
