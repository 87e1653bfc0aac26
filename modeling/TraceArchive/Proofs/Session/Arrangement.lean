import Mathlib
import TraceArchive.Proofs.Assembly
import TraceArchive.Proofs.Session.Searching

/-!
# What a trace search comes to

* `answer_of_concluded`: a search that has a value has read it from the reply of the backend.
* `Fetches`: what the backend has answered to the searches of a trace search.
* `arranged_of_concluded`: the traces that a trace search comes to are those of the fetched spans.
-/

set_option autoImplicit false

namespace TraceArchive
namespace Session

/-- A search that has a value has read it from the reply of the backend. -/
theorem answer_of_concluded
    {session : Session}
    {stage : CallId}
    {asked : Search}
    {given : Value}
    (h : session.Recorded)
    (hplan : (session.call stage).plan = .search asked)
    (hgiven : .concluded stage (.ok given) ∈ session.history) :
    ∃ reply body, session.Answered stage asked reply ∧ reply.result = .ok body ∧
      asked.reading.read body = .ok given := by
  obtain ⟨frame, handed, rfl, hfits, hgot, hyields⟩ :=
    h.explained stage given hgiven (hplan ▸ trivial)
  rw [hplan] at hfits
  obtain ⟨own, reply, rfl⟩ := hfits.of_search
  obtain ⟨body, hbody, hread⟩ := hyields
  exact ⟨reply, body, hgot, hbody, hread⟩

/-- The trace IDs that the backend has listed for a trace search, and the spans that were then
fetched.  Without listed IDs none are fetched. -/
inductive Fetches
    (session : Session)
    (id : CallId)
    (search : TraceSearch) :
    List String → List Span → Prop
  | nothing {stage : CallId} {reply : Reply} {body : Json}
      (hstages : session.stages id = [stage])
      (hlisting : session.Answered stage search.listing reply)
      (hbody : reply.result = .ok body)
      (hids : Response.traceIds body = .ok []) :
      Fetches session id search [] []
  | listed {first second : CallId} {reply reply' : Reply} {body body' : Json}
      {ids : List String} {spans : List Span}
      (hstages : session.stages id = [first, second])
      (hlisting : session.Answered first search.listing reply)
      (hbody : reply.result = .ok body)
      (hids : Response.traceIds body = .ok ids)
      (hfetch : session.Answered second (search.fetch ids) reply')
      (hbody' : reply'.result = .ok body')
      (hspans : Response.spans body' = .ok spans) :
      Fetches session id search ids spans

/-- A listing that has a value has read it from a list of trace IDs. -/
theorem traceIds_of_read
    {search : TraceSearch}
    {body : Json}
    {given : Value}
    (h : search.listing.reading.read body = .ok given) :
    Response.traceIds body = .ok given.texts := by
  change (Response.traceIds body).map Value.ofTexts = .ok given at h
  cases hids : Response.traceIds body with
  | error error =>
      rw [hids] at h
      cases h
  | ok ids =>
      rw [hids] at h
      cases h
      rw [Value.texts_ofTexts]

/-- A fetch that has a value has read it from a list of spans. -/
theorem spans_of_read
    {search : TraceSearch}
    {ids : List String}
    {body : Json}
    {given : Value}
    (h : (search.fetch ids).reading.read body = .ok given) :
    Response.spans body = .ok given.spans := by
  change (Response.spans body).map Value.ofSpans = .ok given at h
  cases hspans : Response.spans body with
  | error error =>
      rw [hspans] at h
      cases h
  | ok spans =>
      rw [hspans] at h
      cases h
      rw [Value.spans_ofSpans]

/-- A trace search that has a value has assembled it from what was fetched. -/
theorem assembled_of_concluded
    {session : Session}
    {id : CallId}
    {search : TraceSearch}
    {value : Value}
    (h : session.Recorded)
    (hplan : (session.call id).plan = .traceSearch search)
    (hvalue : .concluded id (.ok value) ∈ session.history) :
    ∃ ids spans traces, session.Fetches id search ids spans ∧
      Trace.assemble search.criteria search.strict ids spans = .ok traces ∧
        value = .ofTraces traces := by
  obtain ⟨frame, given, rfl, hfits, hgot, hyields⟩ :=
    h.explained id value hvalue (hplan ▸ trivial)
  have hcourse := h.course frame.call search hplan
  rw [hplan] at hfits
  rcases hfits.of_traceSearch with ⟨own, rfl⟩ | ⟨own, ids, rfl⟩
  · obtain ⟨stage, hstages, hgiven⟩ := hgot
    obtain ⟨hempty, rfl⟩ := hyields
    rw [Frame.call, hstages] at hcourse
    cases hcourse with
    | listing hlisting =>
        obtain ⟨reply, body, hanswered, hbody, hread⟩ := answer_of_concluded h hlisting hgiven
        have hids := traceIds_of_read hread
        rw [hempty] at hids
        exact ⟨[], [], [], .nothing hstages hanswered hbody hids, Trace.assemble_nil _ _, rfl⟩
  · obtain ⟨earlier, stage, hstages, hfetch, hgiven⟩ := hgot
    obtain ⟨traces, htraces, rfl⟩ := hyields
    rw [Frame.call, hstages] at hcourse
    cases hcourse with
    | fetching hlisting hlisted _ hasked =>
        cases TraceSearch.fetch_inj.mp (Plan.search.inj (hfetch.symm.trans hasked))
        obtain ⟨reply, body, hanswered, hbody, hread⟩ := answer_of_concluded h hlisting hlisted
        obtain ⟨reply', body', hanswered', hbody', hread'⟩ := answer_of_concluded h hfetch hgiven
        exact ⟨_, given.spans, traces, .listed hstages hanswered hbody (traceIds_of_read hread)
          hanswered' hbody' (spans_of_read hread'), htraces, rfl⟩

/-- **No span is lost, repeated or put in the wrong trace.**  A trace search that has a value was
answered with trace IDs and spans, and its traces are those of the spans of each key, in the order
in which they were fetched: the traces of just those keys that are answered, each once, in the order
in which they are listed, or else first fetched. -/
theorem arranged_of_concluded
    {session : Session}
    {id : CallId}
    {search : TraceSearch}
    {value : Value}
    (h : session.Reachable)
    (hplan : (session.call id).plan = .traceSearch search)
    (hvalue : .concluded id (.ok value) ∈ session.history) :
    ∃ ids spans order, session.Fetches id search ids spans ∧
      Trace.Arranges search.criteria search.strict ids spans order ∧
        value = .ofTraces (order.map (Trace.ofKey search.strict spans)) := by
  obtain ⟨ids, spans, traces, hfetches, hassemble, rfl⟩ :=
    assembled_of_concluded (recorded_of_reachable h) hplan hvalue
  obtain ⟨order, harranges, rfl⟩ := Trace.exists_arranges_of_assemble hassemble
  exact ⟨ids, spans, order, hfetches, harranges, rfl⟩

/-- A bucket of a listing. -/
def bucket (key : String) : Json :=
  .single "key" (.str key)

/-- A hit with the least that a span document has to hold. -/
def hit (traceId id : String) : Json :=
  .single "_source" (.obj [("traceId", .str traceId), ("id", .str id)])

/-- A span of which no more is known. -/
def bareSpan (traceId : TraceId) (id : String) : Span :=
  ⟨traceId, id, none, none, none, none, none, none, none, [], [], none, none⟩

/-- A search for traces that last at least one microsecond. -/
def lasting : TraceSearch :=
  ⟨⟨none, none, [], some 1, none, 1456876800000, 86400000, 10⟩, .ofIndices ["spans"], ["spans"],
    true, .int 10⟩

/-- A backend that lists two traces, and gives the spans of a third with theirs. -/
def listingTwo : Backend :=
  .scripted
    [⟨none, .ok (.single "aggregations" (.single "traceId" (.single "buckets"
      (.arr [bucket "2", bucket "1"]))))⟩,
    ⟨none, .ok (.single "hits" (.single "hits" (.arr
      [hit "1" "a", hit "10000000000000002" "b", hit "2" "c", hit "1" "d"])))⟩]

/-- A session in which a trace search has come to its traces. -/
def assembled : Session :=
  (((start listingTwo).define "traces" (.traceSearch lasting)).spawn "" 0 .caller).settle 20

theorem reachable_assembled : assembled.Reachable := by
  have hdefine := Relation.ReflTransGen.single
    (Move.define (start listingTwo) "traces" (.traceSearch lasting) rfl)
  have hspawn := hdefine.tail (Move.spawn _ "" 0 .caller rfl (by decide))
  exact ⟨_, hspawn.trans (run_settle 20 _)⟩

/-- The listed traces come in their order, with all of their spans; the third one has a high half
and does not last. -/
theorem arranged_of_concluded_assembled :
    let value := Value.ofTraces
      [[bareSpan ⟨0, 2⟩ "c"], [bareSpan ⟨0, 1⟩ "a", bareSpan ⟨0, 1⟩ "d"]]
    (assembled.call 0).plan = .traceSearch lasting ∧
      .concluded 0 (.ok value) ∈ assembled.history ∧
      ∃ ids spans order, assembled.Fetches 0 lasting ids spans ∧
        Trace.Arranges lasting.criteria lasting.strict ids spans order ∧
          value = .ofTraces (order.map (Trace.ofKey lasting.strict spans)) := by
  intro value
  have hplan : (assembled.call 0).plan = .traceSearch lasting := by cbv
  have hhead : assembled.history.head? = some (.concluded 0 (.ok value)) := by cbv
  have hvalue := List.mem_of_head? hhead
  exact ⟨hplan, hvalue, arranged_of_concluded reachable_assembled hplan hvalue⟩

end Session
end TraceArchive
