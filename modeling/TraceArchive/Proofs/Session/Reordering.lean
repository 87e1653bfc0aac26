import Mathlib.Data.List.Perm.Basic
import TraceArchive.Proofs.ArrivalOrder
import TraceArchive.Proofs.Decoding
import TraceArchive.Proofs.Session.Arrangement
import TraceArchive.Proofs.Session.Evaluation

/-!
# Hits in another order

The backend gives the hits of a search in any order.  A strict trace search comes to the same traces
in the same order all the same; only the spans within a trace may be in another order.

* `sortByRank_eq_of_perm`: different ranks leave only one order.
* `Trace.exists_assembled_of_perm`: the traces that are assembled of permuted spans.
* `Response.exists_spans_of_perm`: permuted hits hold permuted spans.
* `Plan.AlwaysReturns`: what every execution of a plan returns.
* `Session.alwaysReturns_of_reordered`: what a trace search returns when the hits are permuted.
-/

set_option autoImplicit false

namespace TraceArchive

/-- Items of different ranks can be put in one order only. -/
theorem sortByRank_eq_of_perm
    {α : Type} {rank : α → Nat} {list list' : List α}
    (hperm : list.Perm list')
    (hinj : ∀ a ∈ list, ∀ b ∈ list, rank a = rank b → a = b) :
    sortByRank rank list = sortByRank rank list' := by
  have hsorted := (perm_sortByRank rank list).trans
    (hperm.trans (perm_sortByRank rank list').symm)
  refine hsorted.eq_of_pairwise (fun a b ha hb hab hba => ?_)
    (pairwise_sortByRank rank list) (pairwise_sortByRank rank list')
  have ha := (perm_sortByRank rank list).mem_iff.mp ha
  have hb := hperm.mem_iff.mpr ((perm_sortByRank rank list').mem_iff.mp hb)
  exact hinj a ha b hb (Nat.le_antisymm hab hba)

/-! ### Assembling -/

namespace Trace

variable {spans spans' : List Span}

theorem perm_keys (strict : Bool) (hperm : spans.Perm spans') :
    (keys strict spans).Perm (keys strict spans') := by
  refine (List.perm_ext_iff_of_nodup (nodup_keys spans) (nodup_keys spans')).mpr fun key => ?_
  simp only [mem_keys, hperm.mem_iff]

theorem perm_ofKey (strict : Bool) (hperm : spans.Perm spans') (key : TraceId) :
    (ofKey strict spans key).Perm (ofKey strict spans' key) :=
  hperm.filter _

/-- Whether a whole trace is kept is decided by its ID and the criteria. -/
theorem keeps_ofKey
    (criteria : Criteria)
    {key : TraceId}
    (hkey : key ∈ keys true spans) :
    keeps criteria (ofKey true spans key) =
      (decide (key.high = 0) || criteria.matchesTrace (ofKey true spans key)) := by
  cases htrace : ofKey true spans key with
  | nil => exact absurd hkey (ofKey_eq_nil_iff.mp htrace)
  | cons first rest =>
      have hfirst : first ∈ ofKey true spans key := htrace ▸ List.mem_cons_self
      have hsame : first.traceId = key := of_decide_eq_true (List.mem_filter.mp hfirst).2
      rw [keeps, hsame]

/-- The listed keys of spans come in one order, whatever the order of the spans. -/
theorem sortByRank_keys_eq_of_perm
    {listed : List TraceId}
    (hperm : spans.Perm spans')
    (hlisted : ∀ span ∈ spans, span.traceId ∈ listed) :
    sortByRank (rank true listed) (keys true spans) =
      sortByRank (rank true listed) (keys true spans') := by
  have hmem : ∀ key ∈ keys true spans, key ∈ listed.map (TraceId.key true) := by
    intro key hkey
    obtain ⟨span, hspan, rfl⟩ := mem_keys.mp hkey
    exact List.mem_map_of_mem (hlisted span hspan)
  refine sortByRank_eq_of_perm (perm_keys true hperm) fun a ha b hb heq => ?_
  rw [rank_of_mem (hmem a ha), rank_of_mem (hmem b hb)] at heq
  exact (List.idxOf_inj (hmem a ha)).mp heq

/-- Traces of listed IDs that are assembled of permuted spans are the same but for the order of the
spans within them. -/
theorem exists_assembled_of_perm
    {criteria : Criteria} {ids : List String}
    (valid : criteria.IsValid)
    (hids : ∀ id ∈ ids, (TraceId.parse? id).isSome)
    (hperm : spans.Perm spans')
    (hlisted : ∀ span ∈ spans, ∃ id ∈ ids, TraceId.parse? id = some span.traceId)
    (hroots : ∀ key, AtMostOneRoot (ofKey true spans key)) :
    ∃ traces traces', assemble criteria true ids spans = .ok traces ∧
      assemble criteria true ids spans' = .ok traces' ∧ List.Forall₂ List.Perm traces traces' := by
  have hread := mapM_readId_of_isSome hids
  have hsorted := sortByRank_keys_eq_of_perm hperm fun span hspan =>
    List.mem_filterMap.mpr (hlisted span hspan)
  refine ⟨_, _, assemble_eq criteria hread spans, assemble_eq criteria hread spans', ?_⟩
  rw [← hsorted]
  have hkept : ∀ key ∈ sortByRank (rank true (ids.filterMap TraceId.parse?)) (keys true spans),
      keeps criteria (ofKey true spans key) = keeps criteria (ofKey true spans' key) := by
    intro key hkey
    have hkey := (perm_sortByRank _ _).mem_iff.mp hkey
    rw [keeps_ofKey criteria hkey, keeps_ofKey criteria ((perm_keys true hperm).mem_iff.mp hkey),
      Criteria.matchesTrace_eq_of_perm valid (perm_ofKey true hperm key) (hroots key)]
  rw [List.filter_congr hkept, List.forall₂_map_left_iff, List.forall₂_map_right_iff]
  exact List.forall₂_same.mpr fun key _ => perm_ofKey true hperm key

end Trace

/-! ### Reading -/

namespace Response

/-- Permuted hits hold permuted spans. -/
theorem exists_spans_of_perm
    {body body' : Json} {hits hits' : List Json} {found : List Span}
    (hhits : ListsHits body hits)
    (hhits' : ListsHits body' hits')
    (hperm : hits.Perm hits')
    (hspans : spans body = .ok found) :
    ∃ found', spans body' = .ok found' ∧ found.Perm found' := by
  obtain ⟨listed, hlisted, hread⟩ := documents_eq_ok_iff.mp hspans
  cases hhits.unique hlisted
  obtain ⟨found', hread', hfound⟩ := List.perm_comp_forall₂ hperm.symm hread
  exact ⟨found', documents_eq_ok_iff.mpr ⟨hits', hhits', hread'⟩, hfound.symm⟩

end Response

/-! ### Searching -/

open TraceArchive.Computation

/-- What a listing comes to whose answer can be read. -/
theorem TraceSearch.answerOf_listing
    (search : TraceSearch)
    {body : Json} {ids : List String}
    (h : Response.traceIds body = .ok ids) :
    Session.answerOf search.listing (.ok body) = .ok (.ofTexts ids) := by
  show (((Response.traceIds body).map Value.ofTexts).mapError Failure.badResponse : Outcome) = _
  rw [h]
  rfl

/-- What a fetch comes to whose answer can be read. -/
theorem TraceSearch.answerOf_fetch
    (search : TraceSearch) (ids : List String)
    {body : Json} {spans : List Span}
    (h : Response.spans body = .ok spans) :
    Session.answerOf (search.fetch ids) (.ok body) = .ok (.ofSpans spans) := by
  show (((Response.spans body).map Value.ofSpans).mapError Failure.badResponse : Outcome) = _
  rw [h]
  rfl

/-- Trace IDs are listed, and spans are fetched for them. -/
structure TraceSearch.Receives
    (search : TraceSearch)
    (answers : Answers)
    (ids : List String)
    (spans : List Span) : Prop where
  listing : ∃ body, answers 0 search.listing = .ok body ∧ Response.traceIds body = .ok ids
  fetch : ∃ body, answers 1 (search.fetch ids) = .ok body ∧ Response.spans body = .ok spans

open Session in
/-- What every execution of a plan returns when searches are answered in some way.  Alone, with a
backend that keeps nobody waiting, an execution settles with the outcome (`settles`).  Whatever else
goes on in a session, as long as nobody disturbs it, an execution goes on until it returns
(`continues`), and then it does so with the outcome (`returns`). -/
structure Plan.AlwaysReturns (plan : Plan) (answers : Answers) (outcome : Outcome) : Prop where
  settles : ∀ backend : Backend,
    (∀ count asked, backend count asked = ⟨none, answers count asked⟩) →
      (execution backend plan).SettlesWith outcome
  continues : ∀ {names session after task root steps told},
    session.Reachable → session.calls.Unused plan root →
      Undisturbed names answers root task session steps told after →
        (after.call root).state.isFinal = false →
          GoesOn names answers root task session steps told after
  returns : ∀ {names session after task root steps told},
    session.Reachable → session.calls.Unused plan root →
      Undisturbed names answers root task session steps told after →
        (after.call root).state.isFinal = true →
          after.Returns root task (session.task task).stack outcome

theorem Plan.AlwaysReturns.unique
    {plan : Plan} {answers : Answers} {first second : Outcome}
    (hfirst : plan.AlwaysReturns answers first)
    (hsecond : plan.AlwaysReturns answers second) :
    first = second :=
  (hfirst.settles (fun count asked => ⟨none, answers count asked⟩) fun _ _ => rfl).unique
    (hsecond.settles _ fun _ _ => rfl)

/-- The execution of a plan has the outcome of its body. -/
theorem snd_within (plan : Plan) (body : Computation Value) (asked : Nat) :
    (within plan body asked).2 = (body asked).2 := by
  rfl

/-- After a search that has a value, a trace search goes on with it. -/
theorem snd_issuing_bind
    {answers : Answers} {asked : Nat} {search : Search} {given : Value}
    (h : Session.answerOf search (answers asked search) = .ok given)
    (owner : TraceSearch)
    (next : Value → Computation Value) :
    ((issuing answers owner search >>= next) asked).2 = (next given (asked + 1)).2 := by
  have hissuing : issuing answers owner search asked =
      ([.issued (.traceSearch owner), .began (.search search), .searched search,
        .concluded (.search search) (.ok given)], .ok given) := by
    rw [← h]
    rfl
  show (Computation.followedBy (issuing answers owner search) _ asked).2 = _
  rw [Computation.followedBy, hissuing]
  rfl

section Assembled

variable {search : TraceSearch} {answers : Answers}
variable {ids : List String} {spans : List Span} {traces : List Trace}

/-- When the answers to its searches can be read and assembled, the phases of a trace search come to
the assembled traces. -/
theorem TraceSearch.outcome_of_assembled
    {backend : Backend}
    (h : search.Receives (fun count asked => (backend count asked).result) ids spans)
    (hnil : ids = [] → spans = [])
    (htraces : Trace.assemble search.criteria search.strict ids spans = .ok traces) :
    search.outcome backend = .ok (.ofTraces traces) := by
  obtain ⟨⟨listing, hlisting, hids⟩, ⟨fetched, hfetched, hspans⟩⟩ := h
  rw [TraceSearch.outcome, hlisting]
  show ((Response.traceIds listing).mapError Failure.badResponse >>= fun ids =>
    if ids.isEmpty then pure (.list []) else search.fetched backend ids) = _
  rw [hids]
  show (if ids.isEmpty then pure (.list []) else search.fetched backend ids : Outcome) = _
  split
  · rename_i hempty
    have hids := List.isEmpty_iff.mp hempty
    rw [hids, hnil hids, Trace.assemble_nil] at htraces
    cases htraces
    rfl
  · rw [TraceSearch.fetched, hfetched]
    show ((Response.spans fetched).mapError Failure.badResponse >>= fun spans =>
      (Trace.assemble search.criteria search.strict ids spans).mapError Failure.badTraces >>=
        fun traces => pure (Value.ofTraces traces)) = _
    rw [hspans]
    show ((Trace.assemble search.criteria search.strict ids spans).mapError Failure.badTraces >>=
      fun traces => pure (Value.ofTraces traces)) = _
    rw [htraces]
    rfl

/-- Then so does what its plan computes. -/
theorem TraceSearch.snd_within_of_assembled
    (h : search.Receives answers ids spans)
    (hnil : ids = [] → spans = [])
    (htraces : Trace.assemble search.criteria search.strict ids spans = .ok traces) :
    (within (.traceSearch search) (do
      let listed ← issuing answers search search.listing
      search.following answers listed.texts) 0).2 = .ok (.ofTraces traces) := by
  obtain ⟨⟨listing, hlisting, hids⟩, ⟨fetched, hfetched, hspans⟩⟩ := h
  have hlisted := hlisting ▸ search.answerOf_listing hids
  rw [snd_within, snd_issuing_bind hlisted, Value.texts_ofTexts, TraceSearch.following]
  split
  · rename_i hempty
    have hids := List.isEmpty_iff.mp hempty
    rw [hids, hnil hids, Trace.assemble_nil] at htraces
    cases htraces
    rfl
  · rw [snd_issuing_bind (hfetched ▸ search.answerOf_fetch ids hspans), Value.spans_ofSpans,
      TraceSearch.assembled, htraces]
    rfl

/-- Every execution of the trace search comes to them. -/
theorem TraceSearch.alwaysReturns_of_assembled
    (h : search.Receives answers ids spans)
    (hnil : ids = [] → spans = [])
    (htraces : Trace.assemble search.criteria search.strict ids spans = .ok traces) :
    (Plan.traceSearch search).AlwaysReturns answers (.ok (.ofTraces traces)) where
  settles backend hbackend := by
    have hanswers : (fun count asked => (backend count asked).result) = answers :=
      funext fun count => funext fun asked => congrArg Reply.result (hbackend count asked)
    rw [← search.outcome_of_assembled (hanswers ▸ h) hnil htraces]
    exact Session.settlesWith_traceSearch
      (fun count asked => congrArg Reply.gate (hbackend count asked)) search
  continues hreachable hunused hundisturbed :=
    hundisturbed.continues hreachable hunused (.traceSearch search)
  returns hreachable hunused hundisturbed hfinal :=
    search.snd_within_of_assembled h hnil htraces ▸
      (hundisturbed.returns hreachable hunused (.traceSearch search) hfinal).1

end Assembled

/-! ### Reordering -/

/-- **The order of the hits does not matter.**  When a strict trace search with valid criteria is
answered with trace IDs and with spans of the listed traces, at most one of the spans of each trace
being a root with a timestamp, then it comes to the same traces in the same order as when it is
answered with the same hits in any other order; only the order of the spans within a trace may be
another one. -/
theorem Session.alwaysReturns_of_reordered
    {search : TraceSearch} {answers answers' : Answers}
    {listing fetched reordered : Json}
    {ids : List String} {hits hits' : List Json} {spans : List Span}
    (hstrict : search.strict = true)
    (valid : search.criteria.IsValid)
    (hlisting : answers 0 search.listing = .ok listing)
    (hlisting' : answers' 0 search.listing = .ok listing)
    (hids : Response.traceIds listing = .ok ids)
    (hfetched : answers 1 (search.fetch ids) = .ok fetched)
    (hreordered : answers' 1 (search.fetch ids) = .ok reordered)
    (hhits : Response.ListsHits fetched hits)
    (hhits' : Response.ListsHits reordered hits')
    (hperm : hits.Perm hits')
    (hspans : Response.spans fetched = .ok spans)
    (hlisted : ∀ span ∈ spans, ∃ id ∈ ids, TraceId.parse? id = some span.traceId)
    (hroots : ∀ id, AtMostOneRoot (spans.filter fun span => span.traceId = id)) :
    ∃ traces traces',
      (Plan.traceSearch search).AlwaysReturns answers (.ok (.ofTraces traces)) ∧
      (Plan.traceSearch search).AlwaysReturns answers' (.ok (.ofTraces traces')) ∧
      List.Forall₂ List.Perm traces traces' := by
  obtain ⟨spans', hspans', hsame⟩ := Response.exists_spans_of_perm hhits hhits' hperm hspans
  have hvalid : ∀ id ∈ ids, (TraceId.parse? id).isSome := by
    obtain ⟨keys, _, hseen, hvalid⟩ := Response.traceIds_eq_ok_iff.mp hids
    exact fun id hid => hvalid id ((hseen.mem_iff id).mp hid)
  obtain ⟨traces, traces', htraces, htraces', hforall⟩ :=
    Trace.exists_assembled_of_perm valid hvalid hsame hlisted hroots
  have hnil : ids = [] → spans = [] := by
    rintro rfl
    refine List.eq_nil_iff_forall_not_mem.mpr fun span hmem => ?_
    obtain ⟨_, hnone, _⟩ := hlisted span hmem
    cases hnone
  rw [← hstrict] at htraces htraces'
  exact ⟨traces, traces',
    search.alwaysReturns_of_assembled ⟨⟨listing, hlisting, hids⟩, ⟨fetched, hfetched, hspans⟩⟩ hnil
      htraces,
    search.alwaysReturns_of_assembled ⟨⟨listing, hlisting', hids⟩, ⟨reordered, hreordered, hspans'⟩⟩
      (fun h => List.perm_nil.mp (hnil h ▸ hsame.symm)) htraces', hforall⟩

namespace Session

/-- The answers of a backend that gives bodies one after the other. -/
def answering (bodies : List Json) : Answers :=
  fun count _ => (bodies[count]?).elim (.error .noReply) .ok

/-- A listing of trace IDs. -/
def listingOf (keys : List String) : Json :=
  .single "aggregations" (.single "traceId" (.single "buckets" (.arr (keys.map bucket))))

/-- A response with hits. -/
def fetchOf (hits : List Json) : Json :=
  .single "hits" (.single "hits" (.arr hits))

/-- The root of a trace whose ID has a high half. -/
def rootHit : Json :=
  .single "_source" (.obj [("traceId", .str "10000000000000002"), ("id", .str "b"),
    ("timestamp", .int 1456800000000000), ("duration", .int 5)])

/-- An earlier span of the same trace, from outside the window. -/
def earlyHit : Json :=
  .single "_source" (.obj [("traceId", .str "10000000000000002"), ("id", .str "e"),
    ("parentId", .str "b"), ("timestamp", .int 1456700000000000)])

/-- The span of the root. -/
def rootSpan : Span :=
  { bareSpan ⟨1, 2⟩ "b" with timestamp := some 1456800000000000, duration := some 5 }

/-- The earlier span. -/
def earlySpan : Span :=
  { bareSpan ⟨1, 2⟩ "e" with parentId := some "b", timestamp := some 1456700000000000 }

/-- With the hits of two traces mixed, the trace that is verified comes first both times; its spans
stand as they were hit. -/
theorem alwaysReturns_of_reordered_mixedHits :
    let listing := listingOf ["10000000000000002", "1"]
    let fetched := fetchOf [earlyHit, hit "1" "a", rootHit]
    let reordered := fetchOf [hit "1" "a", rootHit, earlyHit]
    let traces := [[earlySpan, rootSpan], [bareSpan ⟨0, 1⟩ "a"]]
    let traces' := [[rootSpan, earlySpan], [bareSpan ⟨0, 1⟩ "a"]]
    (Plan.traceSearch lasting).AlwaysReturns (answering [listing, fetched])
      (.ok (.ofTraces traces)) ∧
    (Plan.traceSearch lasting).AlwaysReturns (answering [listing, reordered])
      (.ok (.ofTraces traces')) ∧
    List.Forall₂ List.Perm traces traces' := by
  intro listing fetched reordered traces traces'
  have hids : Response.traceIds listing = .ok ["10000000000000002", "1"] := by cbv
  have hspans : Response.spans fetched = .ok [earlySpan, bareSpan ⟨0, 1⟩ "a", rootSpan] := rfl
  have hspans' : Response.spans reordered = .ok [bareSpan ⟨0, 1⟩ "a", rootSpan, earlySpan] := rfl
  have hsame : ∃ first second,
      (Plan.traceSearch lasting).AlwaysReturns (answering [listing, fetched])
        (.ok (.ofTraces first)) ∧
      (Plan.traceSearch lasting).AlwaysReturns (answering [listing, reordered])
        (.ok (.ofTraces second)) ∧
      List.Forall₂ List.Perm first second := by
    refine alwaysReturns_of_reordered rfl ?_ rfl rfl hids rfl rfl ⟨_, _, rfl, rfl, .arr _⟩
      ⟨_, _, rfl, rfl, .arr _⟩ ?_ hspans ?_ fun id => ?_
    · exact ⟨List.nodup_nil, by simp [lasting], by simp [lasting], by decide, by decide, by decide⟩
    · exact (List.perm_append_singleton earlyHit [hit "1" "a", rootHit]).symm
    · decide
    · refine Nat.le_trans (List.Sublist.countP_le List.filter_sublist) ?_
      decide
  obtain ⟨first, second, hfirst, hsecond, hforall⟩ := hsame
  -- A plan comes to one outcome only, and both can be computed.
  have htraces : Trace.assemble lasting.criteria lasting.strict ["10000000000000002", "1"]
      [earlySpan, bareSpan ⟨0, 1⟩ "a", rootSpan] = .ok traces := by cbv
  have htraces' : Trace.assemble lasting.criteria lasting.strict ["10000000000000002", "1"]
      [bareSpan ⟨0, 1⟩ "a", rootSpan, earlySpan] = .ok traces' := by cbv
  have hnil : ∀ spans : List Span, ["10000000000000002", "1"] = [] → spans = [] :=
    fun _ h => absurd h (List.cons_ne_nil _ _)
  have hcomes : (Plan.traceSearch lasting).AlwaysReturns (answering [listing, fetched])
      (.ok (.ofTraces traces)) :=
    lasting.alwaysReturns_of_assembled ⟨⟨listing, rfl, hids⟩, ⟨fetched, rfl, hspans⟩⟩ (hnil _)
      htraces
  have hcomes' : (Plan.traceSearch lasting).AlwaysReturns (answering [listing, reordered])
      (.ok (.ofTraces traces')) :=
    lasting.alwaysReturns_of_assembled ⟨⟨listing, rfl, hids⟩, ⟨reordered, rfl, hspans'⟩⟩ (hnil _)
      htraces'
  obtain rfl : traces = first := Value.ofTraces_inj (Except.ok.inj (hcomes.unique hfirst))
  obtain rfl : traces' = second := Value.ofTraces_inj (Except.ok.inj (hcomes'.unique hsecond))
  exact ⟨hfirst, hsecond, hforall⟩

end Session
end TraceArchive
