import TraceArchive.Proofs.Archive.Answers
import TraceArchive.Proofs.Grouping
import TraceArchive.Proofs.Session.Execution
import TraceArchive.Store.Lookup

/-!
# The search for traces in two phases gives what a search through all spans gives

The first phase looks only into the partitions of the window and lists trace IDs, the second one
fetches the spans of these traces from all partitions.  Grouped, ordered and verified they are the
traces that a look at every span document selects.

* `test_window`: a span document outside the window is rejected.
* `assemble_ofTraces`: the fetched spans are assembled to the selected traces.
* `traces_eq_naiveTraces`: both searches come to the same.
-/

set_option autoImplicit false

namespace TraceArchive
namespace Archive

variable {naming : Naming}

/-! ### The window -/

theorem atMost_int (a b : Int) : Magnitude.atMost ⟨0, a, 1⟩ ⟨0, b, 1⟩ = decide (a ≤ b) := by
  simp [Magnitude.atMost]

theorem isWithin_int (begin last millis : Int) :
    isWithin (some (.int begin)) (some (.int last)) (.int millis) =
      .ok (decide (begin ≤ millis ∧ millis ≤ last)) := by
  have hlower : compare ">=" (fun a b => b.atMost a) (.int millis) (.int begin) =
      .ok (decide (begin ≤ millis)) := congrArg Except.ok (atMost_int begin millis)
  have hupper : compare "<=" Magnitude.atMost (.int millis) (.int last) =
      .ok (decide (millis ≤ last)) := congrArg Except.ok (atMost_int millis last)
  simp only [isWithin, hlower, hupper, bind, Except.bind]
  by_cases hle : begin ≤ millis
  · simp [hle]
  · simp [hle, pure, Except.pure]

theorem test_window (document : SpanDocument) (begin last : Int) :
    (Clause.between Field.timestampMillis begin (some last)).test document.body =
      .ok (decide (begin ≤ document.millis ∧ document.millis ≤ last)) := by
  show (valuesAt Field.timestampMillis document.body).anyM
    (isWithin (some (.int begin)) (some (.int last))) = _
  rw [valuesAt_timestampMillis, List.anyM, isWithin_int]
  cases decide (begin ≤ document.millis ∧ document.millis ≤ last) <;> rfl

/-- A span document outside the window satisfies no criteria for it. -/
theorem allM_conditions_of_outside
    {criteria : Criteria} {document : SpanDocument} {begin last : Int}
    (houtside : ¬ (begin ≤ document.millis ∧ document.millis ≤ last)) :
    (criteria.clauses begin last).allM (Clause.test document.body) = .ok false := by
  rw [Criteria.clauses, List.allM, test_window, decide_eq_false houtside]
  rfl

/-- The start of a window lies in the calendar. -/
theorem windowStart_bounds
    {endTs lookback : Int}
    (hend : endTs / 86400000 < Calendar.lastDay)
    (hlookback : 0 < lookback) :
    Calendar.firstDay ≤ windowStart endTs lookback / 86400000 ∧
      windowStart endTs lookback / 86400000 ≤ Calendar.lastDay := by
  simp only [windowStart, earliestMillis, Calendar.firstDay, Calendar.lastDay] at *
  omega

/-- Nothing satisfies criteria whose window holds no day. -/
theorem found_of_empty_window
    {criteria : Criteria}
    (hempty : criteria.endTs / 86400000 <
      windowStart criteria.endTs criteria.lookback / 86400000)
    (archive : Archive naming) :
    archive.found criteria = .ok [] := by
  have houtside : ∀ document ∈ archive.spans,
      criteria.conditions.allM (Clause.test document.body) = .ok false := by
    intro document _
    refine allM_conditions_of_outside fun hwithin => ?_
    omega
  rw [found, filterM_eq_ok houtside]
  simp

/-! ### The two phases -/

/-- What the clauses find in the partitions of a window is what they find among all spans. -/
theorem filterM_window
    (hnaming : naming.IsLiteral)
    (archive : Archive naming)
    (criteria : Criteria)
    {begin last : Int} {blocks : List Block}
    (hnil : blocks ≠ [])
    (hreached : ∀ millis partition, naming.ofMillis DocType.span millis = .ok partition →
      begin ≤ millis → millis ≤ last →
        isTarget (",".intercalate (blocks.map (naming.ofBlock DocType.span))) partition = true) :
    ((archive.stored.filter fun document => isTarget
        (",".intercalate (blocks.map (naming.ofBlock DocType.span))) document.1).map
          Prod.snd).filterM (meets (some (Query.every (criteria.clauses begin last)).toJson)) =
      (archive.spans.filterM fun document =>
        (criteria.clauses begin last).allM (Clause.test document.body)).map
          (List.map SpanDocument.body) := by
  rw [filterM_stored]
  · simp only [meets_every]
  · exact fun document _ htarget => isTarget_blocks_le hnaming hnil htarget
  · intro document partition hstored hmem hfalse
    rw [meets_every]
    refine allM_conditions_of_outside fun hwithin => ?_
    rw [hreached document.millis partition hstored hwithin.1 hwithin.2] at hfalse
    cases hfalse

/-- The spans of the documents of listed traces have the keys of the list. -/
theorem mem_keys_ofTraces
    {archive : Archive naming} {ids : List TraceId}
    (hids : ∀ id ∈ ids, ∃ document ∈ archive.spans, document.id = id)
    (key : TraceId) :
    key ∈ Trace.keys true ((ofTraces archive ids).map SpanDocument.span) ↔
      key ∈ ids.map (TraceId.key true) := by
  rw [Trace.mem_keys]
  constructor
  · rintro ⟨span, hspan, rfl⟩
    obtain ⟨document, hdocument, rfl⟩ := List.mem_map.mp hspan
    have hmem := (List.mem_filter.mp hdocument).2
    exact List.mem_map.mpr ⟨document.id, List.contains_iff_mem.mp hmem, rfl⟩
  · intro hkey
    obtain ⟨id, hid, rfl⟩ := List.mem_map.mp hkey
    obtain ⟨document, hdocument, rfl⟩ := hids id hid
    exact ⟨document.span, List.mem_map_of_mem (List.mem_filter.mpr
      ⟨hdocument, List.contains_iff_mem.mpr hid⟩), rfl⟩

theorem ofKey_ofTraces
    {archive : Archive naming} {ids : List TraceId} {id : TraceId}
    (hid : id ∈ ids) :
    Trace.ofKey true ((ofTraces archive ids).map SpanDocument.span) id = archive.traceOf id := by
  rw [Trace.ofKey, List.filter_map, ofTraces, List.filter_filter, traceOf]
  congr 1
  refine List.filter_congr fun document _ => ?_
  rw [Bool.eq_iff_iff]
  simp only [Function.comp, TraceId.key_strict, Bool.and_eq_true, List.contains_iff_mem]
  constructor
  · exact fun h => h.1
  · intro h
    have hdocument : document.id = id := of_decide_eq_true h
    exact ⟨h, hdocument ▸ hid⟩

/-- The documents of listed traces are assembled to the traces, in the order of the list, without
those that have a high half and do not satisfy the criteria. -/
theorem assemble_ofTraces
    (criteria : Criteria)
    {archive : Archive naming} {ids : List TraceId}
    (hnodup : ids.Nodup)
    (hids : ∀ id ∈ ids, ∃ document ∈ archive.spans, document.id = id) :
    Trace.assemble criteria true (ids.map TraceId.hex)
      ((ofTraces archive ids).map SpanDocument.span) =
      .ok ((ids.filter fun id => id.high = 0 || criteria.matchesTrace (archive.traceOf id)).map
        archive.traceOf) := by
  have hkey : ids.map (TraceId.key true) = ids := List.map_id ids
  have hread : ((ids.map TraceId.hex).map Json.str).mapM Trace.readId = .ok ids := by
    have hparse : ids.mapM (Trace.readId ∘ Json.str ∘ TraceId.hex) =
        .ok (ids.map fun key => key) := by
      refine mapM_eq_ok fun key hkey => ?_
      obtain ⟨document, -, rfl⟩ := hids key hkey
      simp only [Function.comp, Trace.readId, Json.text?, Option.bind_some, document.traceId_eq.2]
    rw [List.map_map, List.mapM_map, hparse, List.map_id']
  have htraces : ids.map (Trace.ofKey true ((ofTraces archive ids).map SpanDocument.span)) =
      ids.map archive.traceOf :=
    List.map_congr_left fun id hid => ofKey_ofTraces hid
  have hsorted := Trace.sortByIds_group hread (hkey.symm ▸ hnodup) (mem_keys_ofTraces hids)
  rw [hkey, htraces] at hsorted
  rw [Trace.assemble, hsorted]
  refine Trace.verify_eq criteria fun id hid => ?_
  obtain ⟨document, hdocument, rfl⟩ := hids id hid
  have hmem : document.span ∈ archive.traceOf document.id :=
    List.mem_map_of_mem (List.mem_filter.mpr ⟨hdocument, decide_eq_true rfl⟩)
  cases htrace : archive.traceOf document.id with
  | nil => exact absurd (htrace ▸ hmem) List.not_mem_nil
  | cons span rest =>
      have hspan : span ∈ archive.traceOf document.id := htrace ▸ List.mem_cons_self
      obtain ⟨other, hother, rfl⟩ := List.mem_map.mp hspan
      exact ⟨other.span, rest, rfl, of_decide_eq_true (List.mem_filter.mp hother).2⟩

/-! ### The refinement -/

/-- The second phase comes to the listed traces, without those that have a high half and do not
satisfy the criteria. -/
theorem fetched_eq
    (hnaming : naming.IsLiteral)
    {archive : Archive naming} {search : TraceSearch} {ids : List TraceId} {maxHits : Int}
    (hindices : search.spanIndices = [naming.allPattern DocType.span])
    (hstrict : search.strict = true)
    (hmaxHits : search.maxHits = .int maxHits)
    (hnodup : ids.Nodup)
    (hids : ∀ id ∈ ids, ∃ document ∈ archive.spans, document.id = id)
    (hhits : ((ofTraces archive ids).length : Int) ≤ maxHits) :
    search.fetched (backend archive.stored) (ids.map TraceId.hex) =
      .ok (.ofTraces ((ids.filter fun id =>
        id.high = 0 || search.criteria.matchesTrace (archive.traceOf id)).map archive.traceOf)) := by
  have hparse : ∀ id ∈ ids, TraceId.parse? id.hex = some id := by
    intro id hid
    obtain ⟨document, -, rfl⟩ := hids id hid
    exact document.traceId_eq.2
  have hanswer : (backend archive.stored 1 (search.fetch (ids.map TraceId.hex))).result =
      .ok (hits (ofTraces archive ids)) := by
    show Archive.search archive.stored (",".intercalate search.spanIndices)
      ((SearchRequest.build search.spanIndices
        [.terms Field.traceId ((ids.map TraceId.hex).map .str)]).toJson search.maxHits) = _
    rw [hindices, hmaxHits]
    exact search_fetch hnaming hparse hhits
  rw [TraceSearch.fetched, hanswer]
  show ((Response.spans (hits (ofTraces archive ids))).mapError Failure.badResponse >>= fun spans =>
    (Trace.assemble search.criteria search.strict (ids.map TraceId.hex) spans).mapError
      Failure.badTraces >>= fun traces => pure (Value.ofTraces traces)) = _
  rw [spans_hits, hstrict]
  show ((Trace.assemble search.criteria true (ids.map TraceId.hex)
    ((ofTraces archive ids).map SpanDocument.span)).mapError Failure.badTraces >>= _) = _
  rw [assemble_ofTraces search.criteria hnodup hids]
  rfl

/-- With the first phase answered, the search comes to the traces of the listed IDs. -/
theorem outcome_of_listing
    (hnaming : naming.IsLiteral)
    {archive : Archive naming} {search : TraceSearch} {maxHits : Int}
    (hindices : search.spanIndices = [naming.allPattern DocType.span])
    (hstrict : search.strict = true)
    (hmaxHits : search.maxHits = .int maxHits)
    (hlisting : Archive.search archive.stored search.aggregation.target
      (search.aggregation.toJson search.maxHits) =
        (archive.found search.criteria).map (listing search.criteria))
    (hhits : ∀ documents, archive.found search.criteria = .ok documents →
      ((ofTraces archive (selected search.criteria documents)).length : Int) ≤ maxHits) :
    search.outcome (backend archive.stored) =
      (archive.naiveTraces search.criteria).map Value.ofTraces := by
  have hfirst : (backend archive.stored 0 search.listing).result =
      (archive.found search.criteria).map (Archive.listing search.criteria) := hlisting
  rw [TraceSearch.outcome, hfirst, naiveTraces]
  cases hfound : archive.found search.criteria with
  | error failure => rfl
  | ok documents =>
      show ((Response.traceIds (listing search.criteria documents)).mapError Failure.badResponse >>=
        fun ids => if ids.isEmpty then pure (.list [])
          else search.fetched (backend archive.stored) ids) = _
      rw [traceIds_listing]
      have hids : ∀ id ∈ selected search.criteria documents,
          ∃ document ∈ archive.spans, document.id = id := by
        intro id hid
        obtain ⟨document, hdocument, hkey⟩ := exists_of_mem_selected hid
        exact ⟨document, mem_of_filterM hfound hdocument, hkey⟩
      have hfetched := fetched_eq hnaming hindices hstrict hmaxHits
        (nodup_selected search.criteria documents) hids (hhits documents hfound)
      show (if ((selected search.criteria documents).map TraceId.hex).isEmpty then
        pure (.list []) else search.fetched (backend archive.stored)
          ((selected search.criteria documents).map TraceId.hex) : Outcome) =
        .ok (.ofTraces (((selected search.criteria documents).filter fun id =>
          id.high = 0 || search.criteria.matchesTrace (archive.traceOf id)).map archive.traceOf))
      rw [hfetched]
      cases selected search.criteria documents with
      | nil => rfl
      | cons id rest => rfl

/-- **The search in two phases refines the search through all spans.**  With a strict store, an
index and a mark between the parts of a date that are taken literally, criteria whose window ends
before the last day of the calendar, and no more spans of the selected traces than the store lets a
search give, looking up traces comes to what looking at every span document comes to. -/
theorem traces_eq_naiveTraces
    {config : StoreConfig} {data : Json} {criteria : Criteria}
    (hstrict : config.strictTraceId = true)
    (hnaming : config.store.naming.IsLiteral)
    (hread : Criteria.read data = .ok criteria)
    (hend : criteria.endTs / 86400000 < Calendar.lastDay)
    (archive : Archive config.store.naming)
    (hhits : ∀ documents, archive.found criteria = .ok documents →
      ((ofTraces archive (selected criteria documents)).length : Int) ≤ config.maxHits) :
    ∃ lookup, config.store.traces criteria = .ok lookup ∧
      (Session.execution (backend archive.stored) lookup.plan).SettlesWith
        ((archive.naiveTraces criteria).map Value.ofTraces) := by
  obtain ⟨hendTs, hlookback, hlimit, -, -⟩ := Criteria.isBounded_of_read hread
  obtain ⟨hbegin, hbegin'⟩ := windowStart_bounds hend hlookback
  have hlast : Calendar.firstDay ≤ criteria.endTs / 86400000 := by
    simp only [Calendar.firstDay]
    omega
  obtain ⟨blocks, hblocks, hcalendar, hcount, hempty⟩ :=
    config.store.naming.ofRange_spec DocType.span _ criteria.endTs hbegin hbegin' hlast hend
  have hpartitions : config.store.partitions DocType.span
      (.whole (windowStart criteria.endTs criteria.lookback)) (.whole criteria.endTs) =
      .ok (blocks.map (config.store.naming.ofBlock DocType.span)) :=
    congrArg (Except.mapError LookupError.date) hblocks
  rw [SpanStore.traces]
  simp only [hpartitions, bind, Except.bind]
  by_cases hnil : blocks = []
  · subst hnil
    refine ⟨_, rfl, ?_⟩
    have hnaive : archive.naiveTraces criteria = .ok [] := by
      rw [naiveTraces, found_of_empty_window (hempty.mp rfl)]
      simp [selected, latestFirst, bind, Except.bind, pure, Except.pure]
    rw [hnaive]
    exact Session.settlesWith_constant (.list [])
  · have hindices : (blocks.map (config.store.naming.ofBlock DocType.span)).isEmpty = false := by
      simpa using hnil
    rw [hindices]
    refine ⟨_, rfl, ?_⟩
    have hfound := filterM_window hnaming archive criteria hnil fun millis partition hpartition =>
      isTarget_of_inWindow hnaming hbegin (Int.le_of_lt hend) hcalendar hcount hpartition
    have houtcome : TraceSearch.outcome
        ⟨criteria,
          .build (blocks.map (config.store.naming.ofBlock DocType.span))
            [.filters criteria.conditions, .aggregation (traceIdAggregation criteria.limit)],
          config.store.allSpans, config.store.strictTraceId, config.store.maxHits⟩
        (backend archive.stored) = (archive.naiveTraces criteria).map Value.ofTraces :=
      outcome_of_listing hnaming rfl hstrict rfl (search_listing _ hfound hlimit) hhits
    rw [← houtcome]
    exact Session.settlesWith_traceSearch (fun _ _ => rfl) _

/-! ### A small archive -/

/-- The document of a span with nothing but a trace ID and a timestamp. -/
def bareSpan (id : TraceId) (millis : Int) (h : TraceId.parse? id.hex = some id) :
    SpanDocument where
  members := [(Field.traceId, .str id.hex), ("id", .str "1"),
    ("timestamp", .int (millis * 1000)), (Field.timestampMillis, .int millis)]
  millis := millis
  span := ⟨id, "1", none, none, none, some (millis * 1000), none, none, none, [], [], none, none⟩
  hasMillis := rfl
  reads := by
    show Checked.andThen (match TraceId.parse? id.hex with
      | none => _
      | some id => _) _ = _
    rw [h]
    rfl
  noLow := rfl
  noHigh := rfl
  canonical := by
    intro text other htext hparse
    cases htext
    rw [h] at hparse
    cases hparse
    rfl

/-- A span of the first of March 2016. -/
def earlySpan : SpanDocument := bareSpan ⟨0, 1⟩ 1456790400010 (by decide)

/-- A span of the same day, whose trace ID has a high half. -/
def lateSpan : SpanDocument := bareSpan ⟨3, 3⟩ 1456790400030 (by decide)

/-- A span of the first trace two months later. -/
def tardySpan : SpanDocument := bareSpan ⟨0, 1⟩ 1462060800000 (by decide)

/-- The configuration of a strict store whose searches give three hits. -/
def smallConfig : StoreConfig := ⟨"zipkin", "-", true, 86400000, 3⟩

/-- Three spans of two traces, with a document that is none between them. -/
def smallArchive : Archive smallConfig.store.naming :=
  [.span earlySpan "zipkin-span-2016-03-01" rfl,
    .span lateSpan "zipkin-span-2016-03-01" rfl,
    .dependency .null 1456790400000 "zipkin-dependency-2016-03-01" rfl,
    .span tardySpan "zipkin-span-2016-05-01" rfl]

/-- Criteria for the traces of the first of March 2016. -/
def marchCriteria : Criteria := ⟨none, none, [], none, none, 1456876800000, 86400000, 10⟩

theorem found_smallArchive : smallArchive.found marchCriteria = .ok [earlySpan, lateSpan] := rfl

theorem selected_smallArchive :
    selected marchCriteria [earlySpan, lateSpan] = [⟨3, 3⟩, ⟨0, 1⟩] := by
  have hids : ([earlySpan, lateSpan].map SpanDocument.id).eraseDups = [⟨0, 1⟩, ⟨3, 3⟩] := by decide
  have hearly : earliest [earlySpan, lateSpan] ⟨0, 1⟩ = 1456790400010 := rfl
  have hlate : earliest [earlySpan, lateSpan] ⟨3, 3⟩ = 1456790400030 := rfl
  have hlatest : latestFirst [earlySpan, lateSpan] = [⟨3, 3⟩, ⟨0, 1⟩] := by
    rw [latestFirst, hids]
    simp [List.mergeSort, hearly, hlate]
  rw [selected, hlatest]
  rfl

/-- The trace of the later span comes first, and the other one has its span from outside the window,
too. -/
theorem traces_eq_naiveTraces_smallArchive :
    ∃ lookup, smallConfig.store.traces marchCriteria = .ok lookup ∧
      (Session.execution (backend smallArchive.stored) lookup.plan).SettlesWith
        (.ok (.ofTraces [[lateSpan.span], [earlySpan.span, tardySpan.span]])) := by
  have hread : Criteria.read (.obj [("end_ts", .int 1456876800000), ("lookback", .int 86400000),
      ("limit", .int 10)]) = .ok marchCriteria := rfl
  have hhits : ∀ documents, smallArchive.found marchCriteria = .ok documents →
      ((ofTraces smallArchive (selected marchCriteria documents)).length : Int) ≤
        smallConfig.maxHits := by
    intro documents hfound
    cases hfound.symm.trans found_smallArchive
    rw [selected_smallArchive]
    decide
  have hnaive : smallArchive.naiveTraces marchCriteria =
      .ok [[lateSpan.span], [earlySpan.span, tardySpan.span]] := by
    rw [naiveTraces, found_smallArchive]
    show Except.ok (((selected marchCriteria [earlySpan, lateSpan]).filter _).map _) = _
    rw [selected_smallArchive]
    rfl
  obtain ⟨lookup, hlookup, hsettles⟩ := traces_eq_naiveTraces rfl ⟨by decide, by decide⟩ hread
    (by decide) smallArchive hhits
  rw [hnaive] at hsettles
  exact ⟨lookup, hlookup, hsettles⟩

end Archive
end TraceArchive
