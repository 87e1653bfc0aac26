import TraceArchive.Proofs.Lookups
import TraceArchive.Proofs.Session.Arrangement

/-!
# How many traces a search comes to

Nothing cuts off the traces that a search comes to.  That there are no more of them than were asked
for follows from what the backend is asked: for so many buckets, each of which lists one trace ID,
and for the spans of the listed IDs.  Texts that are repeated are listed once, and texts of one key
stand for one trace.

* `Response.HoldsAtMost`, `length_le_of_traceIds`: so many buckets list no more trace IDs.
* `Trace.Limited`, `Trace.limited_of_arranges`: traces of different listed keys are no more than the
  listed IDs.
* `limited_of_concluded`: the traces that a search of a store comes to.
-/

set_option autoImplicit false

namespace TraceArchive

namespace Response

/-- The aggregations of a response, if they have buckets, have no more of them than a number. -/
def HoldsAtMost (body : Json) (most : Int) : Prop :=
  ∀ (aggregations : List Json) (buckets : List (List Json)), ListsAggregations body aggregations →
    List.Forall₂ ListsBuckets aggregations buckets → (buckets.flatten.length : Int) ≤ most

/-- A response with one aggregation has the buckets of that one. -/
theorem holdsAtMost_of_one
    {body aggregation : Json} {buckets : List Json} {most : Int}
    (haggregations : ListsAggregations body [aggregation])
    (hbuckets : ListsBuckets aggregation buckets)
    (hmost : (buckets.length : Int) ≤ most) :
    HoldsAtMost body most := by
  intro others found hothers hfound
  cases hothers.unique haggregations
  obtain ⟨first, rest, hfirst, hrest, rfl⟩ := List.forall₂_cons_left_iff.mp hfound
  cases hrest
  obtain ⟨inner, hinner, hlists⟩ := hbuckets
  obtain ⟨inner', hinner', hlists'⟩ := hfirst
  cases hinner.symm.trans hinner'
  cases hlists.unique hlists'
  simpa using hmost

/-- There are as many keys as buckets. -/
theorem ListsKeys.exists_buckets
    {body : Json} {keys : List String}
    (h : ListsKeys body keys) :
    ∃ aggregations buckets, ListsAggregations body aggregations ∧
      List.Forall₂ ListsBuckets aggregations buckets ∧ keys.length = buckets.flatten.length := by
  obtain ⟨aggregations, keysOfEach, haggregations, hkeys, rfl⟩ := h
  suffices hbuckets : ∃ buckets, List.Forall₂ ListsBuckets aggregations buckets ∧
      keysOfEach.flatten.length = buckets.flatten.length by
    obtain ⟨buckets, hlists, hlength⟩ := hbuckets
    exact ⟨aggregations, buckets, haggregations, hlists, hlength⟩
  clear haggregations
  induction hkeys with
  | nil => exact ⟨[], .nil, rfl⟩
  | cons hfirst _ ih =>
      obtain ⟨buckets, hlists, hkeys⟩ := hfirst
      obtain ⟨others, hothers, hlength⟩ := ih
      refine ⟨buckets :: others, .cons hlists hothers, ?_⟩
      simp only [List.flatten_cons, List.length_append, hlength, hkeys.length_eq]

/-- So many buckets list no more trace IDs. -/
theorem length_le_of_traceIds
    {body : Json} {ids : List String} {most : Int}
    (hmost : HoldsAtMost body most)
    (h : traceIds body = .ok ids) :
    (ids.length : Int) ≤ most := by
  obtain ⟨keys, hkeys, hseen, -⟩ := traceIds_eq_ok_iff.mp h
  obtain ⟨aggregations, buckets, haggregations, hbuckets, hlength⟩ := hkeys.exists_buckets
  have hsubset : ids ⊆ keys := fun id hmem => (hseen.mem_iff id).mp hmem
  have hdistinct := (List.subperm_of_subset hseen.nodup hsubset).length_le
  have hheld := hmost aggregations buckets haggregations hbuckets
  omega

end Response

namespace Trace

/-- A trace is that of a key: it has spans, and all of them have the key. -/
structure HasKey (strict : Bool) (key : TraceId) (trace : Trace) : Prop where
  ne_nil : trace ≠ []
  spans : ∀ span ∈ trace, span.traceId.key strict = key

/-- Traces of different listed keys, and no more than a number. -/
structure Limited (strict : Bool) (most : Int) (ids : List String) (traces : List Trace) : Prop where
  length : (traces.length : Int) ≤ most
  listed : ∃ keys, keys.Nodup ∧ keys ⊆ listedKeys strict ids ∧
    List.Forall₂ (HasKey strict) keys traces

theorem length_listedKeys_le (strict : Bool) (ids : List String) :
    (listedKeys strict ids).length ≤ ids.length := by
  rw [listedKeys, List.length_map]
  exact List.length_filterMap_le _ _

/-- The traces of spans of listed keys are no more than the listed IDs. -/
theorem limited_of_arranges
    {criteria : Criteria} {strict : Bool} {ids : List String} {spans : List Span}
    {order : List TraceId} {most : Int}
    (h : Arranges criteria strict ids spans order)
    (hlisted : ∀ span ∈ spans, span.traceId.key strict ∈ listedKeys strict ids)
    (hmost : (ids.length : Int) ≤ most) :
    Limited strict most ids (order.map (ofKey strict spans)) := by
  have hkeys : ∀ key ∈ order, HasKey strict key (ofKey strict spans key) := by
    intro key hmem
    obtain ⟨first, rest, htrace, -⟩ := (h.answered key).mp hmem
    refine ⟨by simp [htrace], fun span hspan => ?_⟩
    exact of_decide_eq_true (List.mem_filter.mp hspan).2
  have hsubset : order ⊆ listedKeys strict ids := by
    intro key hmem
    obtain ⟨hne, hspans⟩ := hkeys key hmem
    obtain ⟨span, hspan⟩ := List.exists_mem_of_ne_nil _ hne
    exact hspans span hspan ▸ hlisted span (List.mem_filter.mp hspan).1
  refine ⟨?_, order, h.nodup, hsubset, ?_⟩
  · have hlength := (List.subperm_of_subset h.nodup hsubset).length_le
    have hids := length_listedKeys_le strict ids
    rw [List.length_map]
    omega
  · exact List.forall₂_map_right_iff.mpr (List.forall₂_same.mpr hkeys)

end Trace

namespace Session

/-- Fetched spans come after a response that was read as the listed IDs. -/
theorem Fetches.exists_listing
    {session : Session} {id : CallId} {search : TraceSearch} {ids : List String} {spans : List Span}
    (h : session.Fetches id search ids spans) :
    ∃ stage ∈ session.stages id, ∃ reply body, session.Answered stage search.listing reply ∧
      reply.result = .ok body ∧ Response.traceIds body = .ok ids := by
  cases h with
  | nothing hstages hlisting hbody hids =>
      exact ⟨_, hstages ▸ List.mem_cons_self, _, _, hlisting, hbody, hids⟩
  | listed hstages hlisting hbody hids =>
      exact ⟨_, hstages ▸ List.mem_cons_self, _, _, hlisting, hbody, hids⟩

/-- **At most as many traces as asked for, all of them listed.**  A search for traces asks for at
most so many buckets and for the spans of the listed trace IDs.  When the backend keeps to both, the
traces that the search comes to are of different listed keys, and no more than the criteria ask
for. -/
theorem limited_of_concluded
    {store : SpanStore} {criteria : Criteria} {lookup : Lookup} {search : TraceSearch}
    {session : Session} {id : CallId} {value : Value}
    (hlookup : store.traces criteria = .ok lookup)
    (hsearch : lookup.plan = .traceSearch search)
    (h : session.Reachable)
    (hplan : (session.call id).plan = lookup.plan)
    (hvalue : .concluded id (.ok value) ∈ session.history)
    (hmost : ∀ stage ∈ session.stages id, ∀ reply body,
      session.Answered stage search.listing reply → reply.result = .ok body →
        Response.HoldsAtMost body criteria.limit)
    (hlisted : ∀ ids spans, session.Fetches id search ids spans → ∀ span ∈ spans,
      span.traceId.key store.strictTraceId ∈ Trace.listedKeys store.strictTraceId ids) :
    search.aggregation.aggregations = [traceIdAggregation criteria.limit] ∧
      ∃ ids spans traces, session.Fetches id search ids spans ∧
        (search.fetch ids).request.query = some (.terms Field.traceId (ids.map .str)) ∧
        value = .ofTraces traces ∧
        Trace.Limited store.strictTraceId criteria.limit ids traces := by
  obtain ⟨indices, -, hplans⟩ := SpanStore.traces_eq_ok hlookup
  obtain rfl : search = store.traceSearch criteria indices := by
    cases hplans with
    | nothing hnil hempty => cases hsearch.symm.trans hempty
    | search hcons hfound => exact Plan.traceSearch.inj (hsearch.symm.trans hfound)
  obtain ⟨ids, spans, traces, hfetches, hassemble, rfl⟩ :=
    assembled_of_concluded (recorded_of_reachable h) (hplan.trans hsearch) hvalue
  obtain ⟨order, harranges, rfl⟩ := Trace.exists_arranges_of_assemble hassemble
  obtain ⟨stage, hstage, reply, body, hanswered, hbody, hids⟩ := hfetches.exists_listing
  have hlength := Response.length_le_of_traceIds (hmost stage hstage reply body hanswered hbody) hids
  exact ⟨rfl, ids, spans, _, hfetches, rfl, rfl,
    Trace.limited_of_arranges harranges (hlisted ids spans hfetches) hlength⟩

/-- An aggregation that lists one trace ID in two spellings, and another one. -/
def twiceListed : Json :=
  .single "buckets" (.arr [bucket "2", bucket "02", bucket "1"])

/-- A backend that lists these, and gives spans of both traces. -/
def listingTwice : Backend :=
  fun _ asked => match asked.reading with
    | .traceIds => ⟨none, .ok (.single "aggregations" (.single "traceId" twiceListed))⟩
    | _ => ⟨none, .ok (.single "hits" (.single "hits" (.arr
        [hit "1" "a", hit "02" "b", hit "2" "c"])))⟩

/-- Criteria that ask for three traces of one day. -/
def threeOfDay : Criteria :=
  ⟨none, none, [], none, none, 1456876799999, 1, 3⟩

/-- A store that takes the whole trace ID as it is. -/
def strictStore : SpanStore :=
  ⟨⟨"zipkin", "-"⟩, true, some (.whole 86400000), .int 10⟩

/-- The search of the store for these criteria. -/
def searchOfDay : TraceSearch :=
  strictStore.traceSearch threeOfDay ["zipkin-span-2016-03-01"]

theorem traces_threeOfDay : strictStore.traces threeOfDay = .ok ⟨.traceSearch searchOfDay, []⟩ := by
  cbv

/-- A session in which the search has come to its traces. -/
def limited : Session :=
  (((start listingTwice).define "traces" (.traceSearch searchOfDay)).spawn "" 0 .caller).settle 20

theorem reachable_limited : limited.Reachable := by
  have hdefine := Relation.ReflTransGen.single
    (Move.define (start listingTwice) "traces" (.traceSearch searchOfDay) rfl)
  have hspawn := hdefine.tail (Move.spawn _ "" 0 .caller rfl (by decide))
  exact ⟨_, hspawn.trans (run_settle 20 _)⟩

/-- The three listed texts stand for two traces. -/
theorem limited_of_concluded_limited :
    let value := Value.ofTraces
      [[bareSpan ⟨0, 2⟩ "b", bareSpan ⟨0, 2⟩ "c"], [bareSpan ⟨0, 1⟩ "a"]]
    (limited.call 0).plan = .traceSearch searchOfDay ∧
      .concluded 0 (.ok value) ∈ limited.history ∧
      searchOfDay.aggregation.aggregations = [traceIdAggregation 3] ∧
      ∃ ids spans traces, limited.Fetches 0 searchOfDay ids spans ∧
        (searchOfDay.fetch ids).request.query = some (.terms Field.traceId (ids.map .str)) ∧
        value = .ofTraces traces ∧ Trace.Limited true 3 ids traces := by
  intro value
  have hplan : (limited.call 0).plan = .traceSearch searchOfDay := by cbv
  have hhead : limited.history.head? = some (.concluded 0 (.ok value)) := by cbv
  have hvalue := List.mem_of_head? hhead
  have hbackend : limited.backend = listingTwice := by cbv
  refine ⟨hplan, hvalue, limited_of_concluded traces_threeOfDay rfl reachable_limited hplan hvalue
    ?_ ?_⟩
  · rintro stage - reply body ⟨newer, older, -, rfl⟩ hbody
    rw [hbackend] at hbody
    cases hbody
    have haggregations : Response.ListsAggregations
        (.single "aggregations" (.single "traceId" twiceListed)) [twiceListed] :=
      @Response.ListsAggregations.obj _ [("traceId", twiceListed)] rfl
    exact Response.holdsAtMost_of_one haggregations
      ⟨_, rfl, .arr [bucket "2", bucket "02", bucket "1"]⟩ (by decide)
  · intro ids spans hfetches
    cases hfetches with
    | nothing => exact fun span hspan => absurd hspan List.not_mem_nil
    | listed _ hlisting hbody hids hfetch hbody' hspans =>
        obtain ⟨_, _, -, rfl⟩ := hlisting
        obtain ⟨_, _, -, rfl⟩ := hfetch
        rw [hbackend] at hbody hbody'
        cases hbody
        cases hbody'
        cases hids
        cases hspans
        decide

end Session
end TraceArchive
