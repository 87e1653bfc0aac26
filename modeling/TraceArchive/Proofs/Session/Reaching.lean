import TraceArchive.Proofs.Lookups
import TraceArchive.Proofs.Session.Sending

/-!
# The searches that reach the backend for a call

A call sends its own search, or it issues calls that send theirs, if it is a trace search.

* `stages_of_not_traceSearch`: no other call issues any.
* `asks_of_reaches`: whatever reaches the backend for a call is asked for by its plan.
* `SpanStore.NeverSearchesAll`, `neverSearchesAll`: no search of a store is sent to an empty list of
  indices, and for which lookups nothing is sent at all.
-/

set_option autoImplicit false

namespace TraceArchive
namespace Session

/-- A search has reached the backend for a call: from the call itself, or from one that it has
issued. -/
def Reaches (session : Session) (root : CallId) (asked : Search) : Prop :=
  ∃ own, (own = root ∨ own ∈ session.stages root) ∧ .searched own asked ∈ session.history

/-! ### Only trace searches issue calls -/

theorem stages_begin_of_not_traceSearch
    {session : Session}
    {own : CallId}
    (hplan : ∀ search, (session.call own).plan ≠ .traceSearch search) :
    (session.begin own).2.stages own = session.stages own := by
  by_cases hsearch : ∃ asked, (session.call own).plan = .search asked
  · obtain ⟨asked, hasked⟩ := hsearch
    exact stages_of_history_eq (tells_begin_of_plan_search hasked).history
      (by simp [Observation.stage?])
  · exact stages_of_silent (silent_begin (not_exists.mp hsearch) hplan) own

theorem stages_resume_of_not_traceSearch
    {session : Session}
    {frame : Frame}
    {plan : Plan}
    (hfits : frame.Fits plan)
    (hplan : ∀ search, plan ≠ .traceSearch search)
    (outcome : Outcome) :
    (session.resume frame outcome).2.stages frame.call = session.stages frame.call := by
  cases outcome with
  | error failure => exact stages_of_silent (resume_error session frame failure).2 _
  | ok given =>
      refine stages_of_silent (silent_resume fun own search hframe => ?_) _
      subst hframe
      exact absurd hfits (hplan search)

/-- A move issues a call only for a trace search. -/
theorem stages_of_move_of_not_traceSearch
    {session after : Session}
    (h : session.Sound)
    (hmove : Move session after)
    {id : CallId}
    (hplan : ∀ search, (session.call id).plan ≠ .traceSearch search) :
    after.stages id = session.stages id := by
  rcases move_cases h hmove with hturns | ⟨task, own, hactive, hstate, -, rfl⟩ |
    ⟨task, outcome, frame, rest, hactive, hstack, rfl⟩
  · exact stages_of_history_eq (hturns.extends 0).history (by simp)
  · rw [stages_advance]
    have hown := (extends_opening session own).plan own (h.standing task own hactive).1
    by_cases hsame : id = own
    · subst hsame
      rw [stages_begin_of_not_traceSearch (hown ▸ hplan), stages_opening]
    · obtain ⟨told, htells, -⟩ := tells_begin (engaged_opening h hactive hstate).call
      have hpiece := (piece_opening h hactive hstate).extends htells
      rw [hpiece.stages_of_ne hsame, stages_opening]
  · rw [stages_advance]
    by_cases hsame : id = frame.call
    · subst hsame
      exact stages_resume_of_not_traceSearch (h.steady.fits hstack) hplan outcome
    · obtain ⟨told, htells, -⟩ := tells_resume (engaged_reopening h hactive hstack).call outcome
      have hpiece := (piece_reopening h hactive hstack).extends htells
      exact hpiece.stages_of_ne hsame

/-- Only trace searches issue calls. -/
theorem stages_of_not_traceSearch
    {session : Session}
    {id : CallId}
    (h : session.Reachable)
    (hplan : ∀ search, (session.call id).plan ≠ .traceSearch search) :
    session.stages id = [] := by
  obtain ⟨backend, hrun⟩ := h
  induction hrun with
  | refl => rfl
  | @tail earlier later hearlier hlast ih =>
      have hsound := sound_of_reachable ⟨backend, hearlier⟩
      have hbefore : ∀ search, (earlier.call id).plan ≠ .traceSearch search := by
        intro search hsearch
        have hid : id < earlier.calls.size :=
          lt_size_of_plan_ne (hsearch ▸ traceSearch_ne_default search)
        exact hplan search (((flags_of_move hsound hlast).plan id hid).trans hsearch)
      rw [stages_of_move_of_not_traceSearch hsound hlast hbefore, ih hbefore]

/-- Whatever reaches the backend for a call is asked for by its plan. -/
theorem asks_of_reaches
    {session : Session}
    {root : CallId}
    {asked : Search}
    (h : session.Reachable)
    (hreaches : session.Reaches root asked) :
    (session.call root).plan.Asks asked := by
  obtain ⟨own, hown, hsearched⟩ := hreaches
  have hasked := ((sends_of_reachable h).asked own asked hsearched).1
  rcases hown with rfl | hstage
  · rw [hasked]
    exact .own asked
  · by_cases htrace : ∃ search, (session.call root).plan = .traceSearch search
    · obtain ⟨search, hplan⟩ := htrace
      have hcourse := (recorded_of_reachable h).course root search hplan
      rw [hplan]
      generalize session.stages root = stages at hstage hcourse
      cases hcourse with
      | none => cases hstage
      | listing hfirst =>
          cases List.mem_singleton.mp hstage
          cases Plan.search.inj (hasked.symm.trans hfirst)
          exact .listing search
      | fetching hfirst hgiven hids hsecond =>
          rcases List.mem_cons.mp hstage with rfl | hlast
          · cases Plan.search.inj (hasked.symm.trans hfirst)
            exact .listing search
          · cases List.mem_singleton.mp hlast
            cases Plan.search.inj (hasked.symm.trans hsecond)
            exact .fetch search _
    · rw [stages_of_not_traceSearch h (not_exists.mp htrace)] at hstage
      cases hstage

end Session

/-- A store never searches all indices, for want of any to name, and looks for nothing only for
windows without a day and names of no service. -/
structure SpanStore.NeverSearchesAll (store : SpanStore) : Prop where
  reached : ∀ (session : Session) (root : CallId) (asked : Search), session.Reachable →
    store.Gives (session.call root).plan → session.Reaches root asked → asked.request.NamesIndices
  traces : ∀ (data : Json) (criteria : Criteria) (lookup : Lookup),
    Criteria.read data = .ok criteria → store.traces criteria = .ok lookup →
    (lookup.plan = .emptyList ↔ criteria.endTs < earliestMillis)
  dependencies : ∀ (endTs lookback : Int) (lookup : Lookup),
    store.dependencies endTs lookback = .ok lookup →
    (lookup.plan = .emptyList ↔ endTs / 86400000 < windowStart endTs lookback / 86400000)
  spanNames : ∀ (now : Int) (service : Option String) (lookup : Lookup),
    store.spanNames now service = .ok lookup →
    (lookup.plan = .emptyList ↔ service = none ∨ service = some "")
  serviceNames : ∀ (now : Int) (lookup : Lookup),
    store.serviceNames now = .ok lookup → lookup.plan ≠ .emptyList

namespace SpanStore

/-- **No search of all indices.**  Whatever a lookup of a store with a configuration that was read
sends to the backend, at any time in any session, names at least one index. -/
theorem neverSearchesAll
    {data : Json} {config : StoreConfig}
    (valid : StoreConfig.read data = .ok config) :
    config.store.NeverSearchesAll where
  reached _ _ _ hreachable hgives hreaches :=
    namesIndices_of_gives hgives (Session.asks_of_reaches hreachable hreaches)
  traces _ _ _ hread h := traces_eq_emptyList_iff (Criteria.isBounded_of_read hread).lookback h
  dependencies _ _ _ h := dependencies_eq_emptyList_iff h
  spanNames _ _ _ h := spanNames_eq_emptyList_iff valid h
  serviceNames _ _ h := serviceNames_ne_emptyList valid h

/-- With the defaults, nothing is looked for up to the day before the first stored span, and
something on that day. -/
theorem neverSearchesAll_default :
    ∃ config, StoreConfig.read (.obj []) = .ok config ∧ config.store.NeverSearchesAll ∧
      (∃ lookup, config.store.dependencies 1456790399999 86400000 = .ok lookup ∧
        lookup.plan = .emptyList) ∧
      ∃ lookup, config.store.dependencies 1456790400000 86400000 = .ok lookup ∧
        lookup.plan ≠ .emptyList := by
  have hread : StoreConfig.read (.obj []) = .ok ⟨"zipkin", "-", true, 86400000, 10000⟩ := rfl
  have hnever := neverSearchesAll hread
  have hbefore : SpanStore.dependencies ⟨⟨"zipkin", "-"⟩, true, some (.whole 86400000), .int 10000⟩
      1456790399999 86400000 = .ok ⟨.emptyList,
        ["No dependency indices between 1456790400000 and 1456790399999"]⟩ := by cbv
  have hfrom : SpanStore.dependencies ⟨⟨"zipkin", "-"⟩, true, some (.whole 86400000), .int 10000⟩
      1456790400000 86400000 = .ok ⟨.search ⟨.ofIndices ["zipkin-dependency-2016-03-01"],
        .dependencyLinks, .int 10000⟩, []⟩ := by cbv
  refine ⟨_, hread, hnever, ⟨_, hbefore, ?_⟩, ⟨_, hfrom, ?_⟩⟩
  · exact (hnever.dependencies _ _ _ hbefore).mpr (by decide)
  · exact fun hempty => absurd ((hnever.dependencies _ _ _ hfrom).mp hempty) (by decide)

end SpanStore
end TraceArchive
