import Mathlib
import TraceArchive.Proofs.Archive.Refinement
import TraceArchive.Proofs.Assembly
import TraceArchive.Proofs.Lookups

/-!
# Looking up one trace gives what the search for traces gave

The search passes on the texts of trace IDs as the backend lists them, the lookup of a single trace
writes out the two halves of its ID.  The backend compares texts, and documents may spell one ID in
several ways; the two lookups agree on a trace that was listed in the spelling that its ID is
written in.

* `SpelledSpan`: a document that states its trace ID by its text alone.
* `search_spelled`: the documents that a search without aggregations finds.
* `settlesWith_plainSearch`: the execution of a search comes to what its reply is read as.
* `traceById_eq_of_listed`: the lookup of one trace and the search agree.
-/

set_option autoImplicit false

namespace TraceArchive

/-- The document of a span that states its trace ID by its text alone, in whatever spelling. -/
structure SpelledSpan where
  members : Members
  spelling : String
  span : Span
  spelled : Entries.get? Field.traceId members = some (.str spelling)
  reads : Span.read (.obj members) = .ok span
  noLow : Entries.get? "trace_id" members = none
  noHigh : Entries.get? "trace_id_high" members = none

namespace SpelledSpan

/-- The document as a value. -/
def body (document : SpelledSpan) : Json :=
  .obj document.members

theorem parse?_spelling (document : SpelledSpan) :
    TraceId.parse? document.spelling = some document.span.traceId := by
  obtain ⟨text, htext, hparse⟩ :=
    Span.traceId_of_read document.noLow document.noHigh document.reads
  have heq : document.spelling = text := by
    simpa using document.spelled.symm.trans htext
  rwa [heq]

end SpelledSpan

namespace Archive

/-! ### Searches for documents -/

variable {documents : List (String × SpelledSpan)}

/-- The documents, each in a partition, as the backend has them. -/
def spelled (documents : List (String × SpelledSpan)) : List (String × Json) :=
  documents.map fun document => (document.1, document.2.body)

/-- The documents in the partitions that a search is sent to. -/
def reached (target : String) (documents : List (String × SpelledSpan)) : List SpelledSpan :=
  (documents.filter fun document => isTarget target document.1).map Prod.snd

/-- The response that holds documents. -/
def response (documents : List SpelledSpan) : Json :=
  .obj [("hits", .obj [
    ("total", .single "value" (.int (documents.map SpelledSpan.body).length)),
    ("hits", .arr ((documents.map SpelledSpan.body).map (.single "_source")))])]

theorem valuesAt_spelling (document : SpelledSpan) :
    valuesAt Field.traceId document.body = [.str document.spelling] :=
  valuesAt_of_get? (by decide) document.spelled nofun

/-- A search without aggregations finds the documents that meet its query. -/
theorem search_spelled
    {target : String} {indices : List String} {query : Query}
    {keep : SpelledSpan → Bool} {maxHits : Int}
    (htest : ∀ document : SpelledSpan, meets (some query.toJson) document.body = .ok (keep document))
    (hhits : (((reached target documents).filter keep).length : Int) ≤ maxHits) :
    search (spelled documents) target
      (SearchRequest.toJson ⟨indices, some query, []⟩ (.int maxHits)) =
      .ok (response ((reached target documents).filter keep)) := by
  have hreached : ((spelled documents).filter fun document => isTarget target document.1).map
      Prod.snd = (reached target documents).map SpelledSpan.body := by
    rw [spelled, List.filter_map, List.map_map, reached, List.map_map]
    rfl
  refine search_documents ?_ (by rwa [List.length_map])
  rw [hreached]
  exact filterM_map_eq_ok fun document _ => htest document

/-- The spans of a response that holds documents. -/
theorem spans_response (documents : List SpelledSpan) :
    Response.spans (response documents) = .ok (documents.map SpelledSpan.span) :=
  documents_holding SpelledSpan.reads "Span" documents

theorem meets_traceIds (ids : List String) (document : SpelledSpan) :
    meets (some (Query.terms Field.traceId (ids.map .str)).toJson) document.body =
      .ok (ids.contains document.spelling) := by
  rw [meets_terms, valuesAt_spelling, Except.ok.injEq, Bool.eq_iff_iff]
  simp only [List.any_cons, List.any_nil, Bool.or_false, List.any_map, List.any_eq_true,
    Function.comp, same_str, decide_eq_true_iff, List.contains_iff_mem, exists_eq_right']

theorem meets_traceId (text : String) (document : SpelledSpan) :
    meets (some (Query.term Field.traceId (.str text)).toJson) document.body =
      .ok (text = document.spelling) := by
  show Except.ok ((valuesAt Field.traceId document.body).any (same (.str text))) = _
  rw [valuesAt_spelling, Except.ok.injEq, Bool.eq_iff_iff]
  simp [same_str]

end Archive

/-! ### The execution of a search -/

namespace Session

/-- The execution of a search comes to what its reply is read as. -/
theorem settlesWith_plainSearch
    {backend : Backend}
    (hgate : ∀ count asked, (backend count asked).gate = none)
    (search : Search) :
    (execution backend (.search search)).SettlesWith
      (answerOf search (backend 0 search).result) := by
  obtain ⟨journal, hstart⟩ : ∃ journal, (execution backend (.search search)).step =
      scene backend (Array.push #[] (ofSearch search .new)) 0 [] (.before 0) journal := ⟨_, rfl⟩
  refine settlesWith_of_step rfl ?_
  rw [hstart]
  refine settlesWith_search (reply_of_gate hgate 0 search) fun state journal => ?_
  exact ⟨2, rfl, rfl⟩

end Session

/-- The first phase of a lookup of traces lists these texts. -/
def Lookup.Lists (lookup : Lookup) (backend : Backend) (ids : List String) : Prop :=
  ∃ search body, lookup.plan = .traceSearch search ∧
    (backend 0 search.listing).result = .ok body ∧ Response.traceIds body = .ok ids

namespace Archive

/-! ### Both lookups -/

variable {documents : List (String × SpelledSpan)} {store : SpanStore} {criteria : Criteria}
  {lookup : Lookup} {maxHits : Int}

/-- The documents that a store fetches for listed texts. -/
def fetched
    (store : SpanStore)
    (documents : List (String × SpelledSpan))
    (ids : List String) :
    List SpelledSpan :=
  (reached (",".intercalate store.allSpans) documents).filter fun document =>
    ids.contains document.spelling

/-- A lookup of traces has nothing to look for, or is a search in two phases by the rules of the
store. -/
theorem plan_of_traces (h : store.traces criteria = .ok lookup) :
    lookup.plan = .emptyList ∨
      ∃ search, lookup.plan = .traceSearch search ∧ search.criteria = criteria ∧
        search.spanIndices = store.allSpans ∧ search.strict = store.strictTraceId ∧
        search.maxHits = store.maxHits := by
  obtain ⟨indices, -, hplans⟩ := SpanStore.traces_eq_ok h
  cases hplans with
  | nothing _ hempty => exact Or.inl hempty
  | search _ hplan => exact Or.inr ⟨_, hplan, rfl, rfl, rfl, rfl⟩

/-- What a search in two phases comes to is assembled from the documents of the listed texts. -/
theorem exists_assemble_of_settlesWith
    {search : TraceSearch} {traces : List Trace}
    (hplan : lookup.plan = .traceSearch search)
    (hindices : search.spanIndices = store.allSpans)
    (hmaxHits : search.maxHits = .int maxHits)
    (hsettles : (Session.execution (backend (spelled documents)) lookup.plan).SettlesWith
      (.ok (.ofTraces traces)))
    (hwithin : ∀ ids, lookup.Lists (backend (spelled documents)) ids →
      ((fetched store documents ids).length : Int) ≤ maxHits) :
    traces = [] ∨ ∃ ids, lookup.Lists (backend (spelled documents)) ids ∧
      Trace.assemble search.criteria search.strict ids
        ((fetched store documents ids).map SpelledSpan.span) = .ok traces := by
  rw [hplan] at hsettles
  have houtcome := hsettles.unique (Session.settlesWith_traceSearch (fun _ _ => rfl) search)
  rw [TraceSearch.outcome] at houtcome
  cases hbody : (backend (spelled documents) 0 search.listing).result with
  | error failure =>
      rw [hbody] at houtcome
      cases houtcome
  | ok body =>
      cases hids : Response.traceIds body with
      | error error =>
          simp only [hbody, hids, bind, Except.bind, Except.mapError] at houtcome
          cases houtcome
      | ok ids =>
          have hlists : lookup.Lists (backend (spelled documents)) ids :=
            ⟨search, body, hplan, hbody, hids⟩
          simp only [hbody, hids, bind, Except.bind, Except.mapError] at houtcome
          split at houtcome
          · exact Or.inl (Value.ofTraces_inj (Except.ok.inj houtcome))
          · have hanswer : (backend (spelled documents) 1 (search.fetch ids)).result =
                .ok (response (fetched store documents ids)) := by
              show Archive.search (spelled documents) (",".intercalate search.spanIndices)
                (SearchRequest.toJson ⟨search.spanIndices,
                  some (.terms Field.traceId (ids.map .str)), []⟩ search.maxHits) = _
              rw [hindices, hmaxHits]
              exact search_spelled (meets_traceIds ids) (hwithin ids hlists)
            refine Or.inr ⟨ids, hlists, ?_⟩
            rw [TraceSearch.fetched, hanswer] at houtcome
            simp only [bind, Except.bind, spans_response, Except.mapError] at houtcome
            cases htraces : Trace.assemble search.criteria search.strict ids
                ((fetched store documents ids).map SpelledSpan.span) with
            | error error =>
                rw [htraces] at houtcome
                cases houtcome
            | ok assembled =>
                rw [htraces] at houtcome
                rw [Value.ofTraces_inj (Except.ok.inj houtcome)]

/-- A trace that was listed in the spelling that its ID is written in has just the documents that are
spelled so. -/
theorem filter_fetched_eq
    {ids : List String} {id : TraceId}
    (hnonempty : ∃ document ∈ fetched store documents ids, document.span.traceId = id)
    (hspelling : ∀ text ∈ ids, TraceId.parse? text = some id → text = id.hex) :
    (fetched store documents ids).filter (fun document => document.span.traceId = id) =
      (reached (",".intercalate store.allSpans) documents).filter fun document =>
        id.hex = document.spelling := by
  obtain ⟨witness, hwitness, hid⟩ := hnonempty
  have hlisted : witness.spelling ∈ ids :=
    List.contains_iff_mem.mp (List.mem_filter.mp hwitness).2
  have hhex : witness.spelling = id.hex :=
    hspelling _ hlisted (hid ▸ witness.parse?_spelling)
  have hparse : TraceId.parse? id.hex = some id := hhex ▸ hid ▸ witness.parse?_spelling
  rw [fetched, List.filter_filter]
  refine List.filter_congr fun document _ => ?_
  rw [Bool.eq_iff_iff]
  simp only [Bool.and_eq_true, decide_eq_true_iff, List.contains_iff_mem]
  constructor
  · rintro ⟨rfl, hmem⟩
    exact (hspelling _ hmem document.parse?_spelling).symm
  · intro heq
    have hdocument := document.parse?_spelling
    rw [← heq, hparse] at hdocument
    exact ⟨(Option.some.inj hdocument).symm, heq ▸ hhex ▸ hlisted⟩

/-- The lookup of one trace finds the documents that spell its ID as it is written. -/
theorem settlesWith_traceById
    {id : TraceId} {found : List SpelledSpan}
    (hstrict : store.strictTraceId = true)
    (hmaxHits : store.maxHits = .int maxHits)
    (hfound : (reached (",".intercalate store.allSpans) documents).filter
      (fun document => id.hex = document.spelling) = found)
    (hhits : (found.length : Int) ≤ maxHits) :
    (Session.execution (backend (spelled documents)) (store.traceById id).plan).SettlesWith
      (.ok (.ofSpans (found.map SpelledSpan.span))) := by
  have hanswer : search (spelled documents) (",".intercalate store.allSpans)
      (SearchRequest.toJson ⟨store.allSpans, some (.term Field.traceId (.str id.hex)), []⟩
        (.int maxHits)) = .ok (response found) := by
    rw [search_spelled (meets_traceId id.hex) (hfound ▸ hhits), hfound]
  have houtcome : Session.answerOf
      ⟨.build store.allSpans [.term Field.traceId (.str id.hex)], .spans, store.maxHits⟩
      (.ok (response found)) = .ok (.ofSpans (found.map SpelledSpan.span)) := by
    show (((Response.spans (response found)).map Value.ofSpans).mapError Failure.badResponse) = _
    rw [spans_response]
    rfl
  have hplan : (store.traceById id).plan = .search
      ⟨.build store.allSpans [.term Field.traceId (.str id.hex)], .spans, store.maxHits⟩ := by
    rw [SpanStore.traceById, hstrict]
    rfl
  rw [hplan, ← houtcome, ← hanswer, ← hmaxHits]
  exact Session.settlesWith_plainSearch (fun _ _ => rfl) _

/-- **The lookup of one trace gives what the search for traces gave**, span by span, when the store
is strict, the search stays within the number of hits, and the trace was listed only in the spelling
that its ID is written in. -/
theorem traceById_eq_of_listed
    {traces : List Trace}
    (hstrict : store.strictTraceId = true)
    (hmaxHits : store.maxHits = .int maxHits)
    (hlookup : store.traces criteria = .ok lookup)
    (hsettles : (Session.execution (backend (spelled documents)) lookup.plan).SettlesWith
      (.ok (.ofTraces traces)))
    (hwithin : ∀ ids, lookup.Lists (backend (spelled documents)) ids →
      ((fetched store documents ids).length : Int) ≤ maxHits) :
    ∀ trace ∈ traces, ∃ first rest, trace = first :: rest ∧
      ((∀ ids, lookup.Lists (backend (spelled documents)) ids →
          ∀ text ∈ ids, TraceId.parse? text = some first.traceId → text = first.traceId.hex) →
        (Session.execution (backend (spelled documents))
          (store.traceById first.traceId).plan).SettlesWith (.ok (.ofSpans trace))) := by
  intro trace hmem
  rcases plan_of_traces hlookup with hempty | ⟨search, hplan, -, hindices, hrule, hhits⟩
  · rw [hempty] at hsettles
    have hnone := Value.ofTraces_inj (Except.ok.inj
      (hsettles.unique (Session.settlesWith_constant (.ofTraces []))))
    rw [hnone] at hmem
    cases hmem
  · rcases exists_assemble_of_settlesWith hplan hindices (hhits.trans hmaxHits) hsettles hwithin with
      rfl | ⟨ids, hlists, hassemble⟩
    · cases hmem
    · obtain ⟨order, arranges, rfl⟩ := Trace.exists_arranges_of_assemble hassemble
      obtain ⟨id, hid, rfl⟩ := List.mem_map.mp hmem
      obtain ⟨first, rest, htrace, -⟩ := (arranges.answered id).mp hid
      refine ⟨first, rest, htrace, fun hspelling => ?_⟩
      -- the trace of an ID is what the fetched documents of the ID hold
      have hofKey : Trace.ofKey search.strict ((fetched store documents ids).map SpelledSpan.span) id =
          ((fetched store documents ids).filter fun document => document.span.traceId = id).map
            SpelledSpan.span := by
        rw [hrule, hstrict, Trace.ofKey, List.filter_map]
        rfl
      rw [hofKey] at htrace ⊢
      have hfirst : first ∈ ((fetched store documents ids).filter fun document =>
          document.span.traceId = id).map SpelledSpan.span := htrace ▸ List.mem_cons_self
      obtain ⟨document, hdocument, rfl⟩ := List.mem_map.mp hfirst
      obtain ⟨hfetched, hkey⟩ := List.mem_filter.mp hdocument
      obtain rfl : document.span.traceId = id := of_decide_eq_true hkey
      have hfound := filter_fetched_eq ⟨document, hfetched, rfl⟩ (hspelling ids hlists)
      refine settlesWith_traceById hstrict hmaxHits hfound.symm ?_
      have hle := List.length_filter_le
        (fun other => decide (other.span.traceId = document.span.traceId))
        (fetched store documents ids)
      have hall := hwithin ids hlists
      omega

/-! ### Two spellings of one ID -/

/-- The document of a span with nothing but a trace ID and a timestamp. -/
def bareSpelledSpan
    (spelling : String) (id : TraceId) (millis : Int)
    (h : TraceId.parse? spelling = some id) :
    SpelledSpan where
  members := [(Field.traceId, .str spelling), ("id", .str "1"),
    ("timestamp", .int (millis * 1000)), (Field.timestampMillis, .int millis)]
  spelling := spelling
  span := ⟨id, "1", none, none, none, some (millis * 1000), none, none, none, [], [], none, none⟩
  spelled := rfl
  reads := by
    show Checked.andThen (match TraceId.parse? spelling with
      | none => _
      | some id => _) _ = _
    rw [h]
    rfl
  noLow := rfl
  noHigh := rfl

/-- A span of the first of March 2016, with the digits of its ID that count. -/
def shortSpan : SpelledSpan := bareSpelledSpan "a1" ⟨0, 161⟩ 1456790400010 (by decide)

/-- The same span, with its ID as it is written. -/
def wholeSpan : SpelledSpan := bareSpelledSpan "00000000000000a1" ⟨0, 161⟩ 1456790400010 (by decide)

/-- A span of the same trace two months later, with the digits of its ID that count. -/
def tardyShortSpan : SpelledSpan := bareSpelledSpan "a1" ⟨0, 161⟩ 1462060800000 (by decide)

/-- The documents of a trace whose ID is spelled in two ways. -/
def mixedDocuments : List (String × SpelledSpan) :=
  [("zipkin-span-2016-03-01", wholeSpan), ("zipkin-span-2016-05-01", tardyShortSpan)]

/-- The document of a trace whose ID is spelled as it is not written. -/
def shortDocuments : List (String × SpelledSpan) :=
  [("zipkin-span-2016-03-01", shortSpan)]

/-- The search for the traces of the first of March 2016. -/
def marchSearch : TraceSearch :=
  ⟨marchCriteria, .build ["zipkin-span-2016-03-01", "zipkin-span-2016-03-02"]
    [.filters marchCriteria.conditions, .aggregation (traceIdAggregation 10)],
    smallConfig.store.allSpans, true, .int 3⟩

theorem traces_marchCriteria :
    smallConfig.store.traces marchCriteria = .ok ⟨.traceSearch marchSearch, []⟩ := by
  have hpartitions : smallConfig.store.partitions DocType.span
      (.whole (windowStart marchCriteria.endTs marchCriteria.lookback))
      (.whole marchCriteria.endTs) =
      .ok ["zipkin-span-2016-03-01", "zipkin-span-2016-03-02"] := by cbv
  simp only [SpanStore.traces, hpartitions, bind, Except.bind]
  rfl

/-- What the first phase lists is what its response is read as. -/
theorem ids_of_lists
    {backend : Backend} {search : TraceSearch} {ids listed : List String}
    (hplan : lookup.plan = .traceSearch search)
    (hlisted : ((backend 0 search.listing).result.bind fun body =>
      (Response.traceIds body).mapError Failure.badResponse) = .ok listed)
    (h : lookup.Lists backend ids) :
    ids = listed := by
  obtain ⟨other, body, hother, hbody, hids⟩ := h
  obtain rfl : search = other := Plan.traceSearch.inj (hplan.symm.trans hother)
  rw [hbody] at hlisted
  simp only [Except.bind, hids, Except.mapError, Except.ok.injEq] at hlisted
  exact hlisted

/-- The search lists the ID as it is written, and both lookups give the span that is spelled so. -/
theorem traceById_eq_of_mixedDocuments :
    ∃ lookup, smallConfig.store.traces marchCriteria = .ok lookup ∧
      (Session.execution (backend (spelled mixedDocuments)) lookup.plan).SettlesWith
        (.ok (.ofTraces [[wholeSpan.span]])) ∧
      (Session.execution (backend (spelled mixedDocuments))
        (smallConfig.store.traceById wholeSpan.span.traceId).plan).SettlesWith
          (.ok (.ofSpans [wholeSpan.span])) := by
  have houtcome : marchSearch.outcome (backend (spelled mixedDocuments)) =
      .ok (.ofTraces [[wholeSpan.span]]) := by cbv
  have hsettles : (Session.execution (backend (spelled mixedDocuments))
      (.traceSearch marchSearch)).SettlesWith (.ok (.ofTraces [[wholeSpan.span]])) := by
    rw [← houtcome]
    exact Session.settlesWith_traceSearch (fun _ _ => rfl) marchSearch
  have hlists : ∀ ids, Lookup.Lists ⟨.traceSearch marchSearch, []⟩
      (backend (spelled mixedDocuments)) ids → ids = ["00000000000000a1"] :=
    fun ids => ids_of_lists rfl (by cbv)
  have hcount : (fetched smallConfig.store mixedDocuments ["00000000000000a1"]).length = 1 := by cbv
  obtain ⟨first, rest, htrace, hagrees⟩ := traceById_eq_of_listed rfl rfl traces_marchCriteria
    hsettles (fun ids h => by rw [hlists ids h, hcount]; decide) _ List.mem_cons_self
  obtain ⟨rfl, rfl⟩ := List.cons.inj htrace
  refine ⟨_, traces_marchCriteria, hsettles, hagrees fun ids h text hmem _ => ?_⟩
  rw [hlists ids h] at hmem
  rw [List.mem_singleton.mp hmem]
  decide

/-- **A trace whose ID is spelled as it is not written is found by the search and not by the lookup
of its ID**, whose text the backend compares with the stored one. -/
theorem traceById_ne_of_shortDocuments :
    ∃ lookup, smallConfig.store.traces marchCriteria = .ok lookup ∧
      (∀ ids, lookup.Lists (backend (spelled shortDocuments)) ids →
        ((fetched smallConfig.store shortDocuments ids).length : Int) ≤ smallConfig.maxHits) ∧
      (Session.execution (backend (spelled shortDocuments)) lookup.plan).SettlesWith
        (.ok (.ofTraces [[shortSpan.span]])) ∧
      ¬ (Session.execution (backend (spelled shortDocuments))
        (smallConfig.store.traceById shortSpan.span.traceId).plan).SettlesWith
          (.ok (.ofSpans [shortSpan.span])) := by
  have houtcome : marchSearch.outcome (backend (spelled shortDocuments)) =
      .ok (.ofTraces [[shortSpan.span]]) := by cbv
  have hsettles : (Session.execution (backend (spelled shortDocuments))
      (.traceSearch marchSearch)).SettlesWith (.ok (.ofTraces [[shortSpan.span]])) := by
    rw [← houtcome]
    exact Session.settlesWith_traceSearch (fun _ _ => rfl) marchSearch
  have hlists : ∀ ids, Lookup.Lists ⟨.traceSearch marchSearch, []⟩
      (backend (spelled shortDocuments)) ids → ids = ["a1"] :=
    fun ids => ids_of_lists rfl (by cbv)
  have hcount : (fetched smallConfig.store shortDocuments ["a1"]).length = 1 := by cbv
  have hfound : (reached (",".intercalate smallConfig.store.allSpans) shortDocuments).filter
      (fun document => shortSpan.span.traceId.hex = document.spelling) = [] := by cbv
  have hnothing : (Session.execution (backend (spelled shortDocuments))
      (smallConfig.store.traceById shortSpan.span.traceId).plan).SettlesWith (.ok (.ofSpans [])) :=
    settlesWith_traceById rfl rfl hfound (by decide)
  refine ⟨_, traces_marchCriteria, fun ids h => ?_, hsettles, fun hfound => ?_⟩
  · rw [hlists ids h, hcount]
    decide
  · have heq := hnothing.unique hfound
    cases heq

end Archive
end TraceArchive
