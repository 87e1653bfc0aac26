import TraceArchive.Proofs.Archive.Targets
import TraceArchive.Response
import TraceArchive.Search.Criteria

/-!
# What the backend answers to a search for traces

* `search_listing`: the answer to the first phase lists the selected traces.
* `search_documents`, `documents_holding`: the answer to a search for documents, and what is read
  from it.
* `search_fetch`: the answer to the second phase holds the documents of the listed traces.
-/

set_option autoImplicit false

namespace TraceArchive
namespace Archive

/-! ### Queries -/

theorem meetsClause_toJson (document : Json) (clause : Clause) :
    meetsClause document clause.toJson = clause.test document := by
  cases clause with
  | term field value => rfl
  | range field least most => cases most <;> rfl

theorem meets_every (document : Json) (clauses : List Clause) :
    meets (some (Query.every clauses).toJson) document = clauses.allM (Clause.test document) := by
  show (clauses.map Clause.toJson).allM (meetsClause document) = _
  induction clauses with
  | nil => rfl
  | cons clause rest ih =>
      rw [List.map_cons, List.allM, List.allM, meetsClause_toJson, ih]

theorem meets_terms (document : Json) (field : String) (values : List Json) :
    meets (some (Query.terms field values).toJson) document =
      .ok ((valuesAt field document).any fun value => values.any (same value)) := rfl

theorem same_str (a b : String) : same (.str a) (.str b) = decide (a = b) := rfl

/-! ### Values -/

theorem valuesAt_of_get?
    {field : String} {members : Members} {value : Json}
    (hpath : (field.toList.splitOn '.').map String.ofList = [field])
    (hvalue : Entries.get? field members = some value)
    (hitems : ∀ items, value ≠ .arr items) :
    valuesAt field (.obj members) = [value] := by
  have hfollow : follow ((field.toList.splitOn '.').map String.ofList) (.obj members) = some value := by
    rw [hpath, follow, Json.member?, hvalue]
    rfl
  rw [valuesAt, hfollow]
  cases value with
  | arr items => exact absurd rfl (hitems items)
  | _ => rfl

theorem valuesAt_timestampMillis (document : SpanDocument) :
    valuesAt Field.timestampMillis document.body = [.int document.millis] :=
  valuesAt_of_get? (by decide) document.hasMillis nofun

theorem valuesAt_traceId (document : SpanDocument) :
    valuesAt Field.traceId document.body = [.str document.id.hex] :=
  valuesAt_of_get? (by decide) document.traceId_eq.1 nofun

/-- Documents of one text are of one trace. -/
theorem hex_inj (a b : SpanDocument) : a.id.hex = b.id.hex ↔ a.id = b.id := by
  refine ⟨fun h => ?_, fun h => by rw [h]⟩
  have ha := a.traceId_eq.2
  rw [h, b.traceId_eq.2] at ha
  exact (Option.some.inj ha).symm

theorem eraseDups_map_hex (documents : List SpanDocument) :
    (documents.map fun document => document.id.hex).eraseDups =
      ((documents.map SpanDocument.id).eraseDups).map TraceId.hex := by
  rw [← eraseDups_map, List.map_map]
  · rfl
  · intro a ha b hb heq
    obtain ⟨first, -, rfl⟩ := List.mem_map.mp ha
    obtain ⟨second, -, rfl⟩ := List.mem_map.mp hb
    exact (hex_inj first second).mp heq

/-! ### Buckets -/

/-- The bucket of a trace. -/
def bucket (documents : List SpanDocument) (id : TraceId) : Json :=
  .obj [("key", .str id.hex),
    ("doc_count", .int (documents.filter fun document => document.id = id).length),
    (Field.timestampMillis, .obj [("value", .int (earliest documents id))])]

theorem least_timestampMillis {documents : List SpanDocument} (hnil : documents ≠ []) :
    least (Aggregation.least Field.timestampMillis).toJson (documents.map SpanDocument.body) =
      .ok (.obj [("value", .int (((documents.map SpanDocument.millis).min?).getD 0))]) := by
  have hvalues : (documents.map SpanDocument.body).flatMap (valuesAt Field.timestampMillis) =
      (documents.map SpanDocument.millis).map .int := by
    rw [List.flatMap_map, List.map_map, List.map_eq_flatMap]
    simp only [valuesAt_timestampMillis, Function.comp]
  have hread : ((documents.map SpanDocument.millis).map Json.int).mapM integerIn =
      .ok (documents.map SpanDocument.millis) := by
    have hid : (documents.map SpanDocument.millis).mapM (integerIn ∘ Json.int) =
        .ok ((documents.map SpanDocument.millis).map id) := mapM_eq_ok fun n _ => rfl
    rw [List.mapM_map, hid, List.map_id]
  show ((((documents.map SpanDocument.body).flatMap (valuesAt Field.timestampMillis)).mapM
    integerIn) >>= _) = _
  rw [hvalues, hread]
  cases hmin : (documents.map SpanDocument.millis).min? with
  | none => exact absurd (List.map_eq_nil_iff.mp (List.min?_eq_none_iff.mp hmin)) hnil
  | some n =>
      show Except.ok (Json.obj [("value", Option.elim _ _ _)]) = _
      rw [hmin]
      rfl

/-- The documents of a trace are those with its text. -/
theorem filter_keyed (documents : List SpanDocument) (document : SpanDocument) :
    ((documents.map fun other => ([other.id.hex], other.body)).filter fun entry =>
      entry.1.contains document.id.hex).map Prod.snd =
      (documents.filter fun other => other.id = document.id).map SpanDocument.body := by
  rw [List.filter_map, List.map_map]
  congr 1
  refine List.filter_congr fun other _ => ?_
  rw [Bool.eq_iff_iff]
  simp [hex_inj document other, eq_comm]

theorem keyed_body (document : SpanDocument) :
    keyed Field.traceId document.body = .ok ([document.id.hex], document.body) := by
  rw [keyed, valuesAt_traceId]
  rfl

/-- The bucket of a trace is ordered by its least timestamp, the latest first. -/
theorem rankedBucket_hex
    (documents : List SpanDocument)
    {document : SpanDocument}
    (hmem : document ∈ documents) :
    rankedBucket [(Field.timestampMillis, (Aggregation.least Field.timestampMillis).toJson)]
      (some (.single Field.timestampMillis (.str "desc")))
      (documents.map fun other => ([other.id.hex], other.body)) document.id.hex =
      .ok ((earliest documents document.id, true), bucket documents document.id) := by
  have hnil : documents.filter (fun other => other.id = document.id) ≠ [] :=
    List.ne_nil_of_mem (List.mem_filter.mpr ⟨hmem, decide_eq_true rfl⟩)
  rw [rankedBucket, filter_keyed, bucketOf, List.mapM_cons, least_timestampMillis hnil,
    List.length_map]
  rfl

/-- The buckets of the traces of documents, in the order of their least timestamps. -/
theorem aggregate_traceIds (documents : List SpanDocument) {limit : Int} (hlimit : 0 < limit) :
    aggregate (traceIdAggregation limit).toJson (documents.map SpanDocument.body) =
      .ok (.obj [("buckets",
        .arr (((latestFirst documents).take limit.toNat).map (bucket documents)))]) := by
  have hkeyed : (documents.map SpanDocument.body).mapM (keyed Field.traceId) =
      .ok (documents.map fun document => ([document.id.hex], document.body)) := by
    rw [List.mapM_map]
    exact mapM_eq_ok fun document _ => keyed_body document
  have hkeys : ((documents.map fun document => ([document.id.hex], document.body)).flatMap
      Prod.fst).eraseDups = ((documents.map SpanDocument.id).eraseDups).map TraceId.hex := by
    rw [← eraseDups_map_hex, List.flatMap_map, List.map_eq_flatMap]
  have hranked : (((documents.map SpanDocument.id).eraseDups).map TraceId.hex).mapM
      (rankedBucket [(Field.timestampMillis, (Aggregation.least Field.timestampMillis).toJson)]
        (some (.single Field.timestampMillis (.str "desc")))
        (documents.map fun document => ([document.id.hex], document.body))) =
      .ok (((documents.map SpanDocument.id).eraseDups).map fun id =>
        ((earliest documents id, true), bucket documents id)) := by
    rw [List.mapM_map]
    refine mapM_eq_ok fun id hmem => ?_
    obtain ⟨document, hdocument, rfl⟩ := List.mem_map.mp (List.mem_eraseDups.mp hmem)
    exact rankedBucket_hex documents hdocument
  have hsorted : (((documents.map SpanDocument.id).eraseDups).map fun id =>
      ((earliest documents id, true), bucket documents id)).mergeSort
        (fun a b => inOrder a.1 b.1) =
      (latestFirst documents).map fun id =>
        ((earliest documents id, true), bucket documents id) := by
    symm
    apply List.map_mergeSort
    intro a _ b _
    rfl
  show ((documents.map SpanDocument.body).mapM (keyed Field.traceId) >>= _) = _
  rw [hkeyed]
  show ((((documents.map fun document => ([document.id.hex], document.body)).flatMap
    Prod.fst).eraseDups.mapM (rankedBucket
      [(Field.timestampMillis, (Aggregation.least Field.timestampMillis).toJson)]
      (some (.single Field.timestampMillis (.str "desc")))
      (documents.map fun document => ([document.id.hex], document.body)))) >>= _) = _
  rw [hkeys, hranked]
  show Except.ok (Json.obj [("buckets", .arr (firstOnes limit (List.map Prod.snd
    (List.mergeSort _ fun a b => inOrder a.1 b.1))))]) = _
  rw [hsorted, List.map_map, firstOnes, if_pos (Int.le_of_lt hlimit), ← List.map_take]
  rfl

/-! ### The first phase -/

/-- The response that lists the selected traces of documents. -/
def listing (criteria : Criteria) (documents : List SpanDocument) : Json :=
  .obj [
    ("hits", .obj [
      ("total", .single "value" (.int (documents.map SpanDocument.body).length)),
      ("hits", .arr [])]),
    ("aggregations", .obj [(Field.traceId, .obj [("buckets",
      .arr ((selected criteria documents).map (bucket documents)))])])]

variable {naming : Naming}

/-- The first phase lists the selected traces of what its clauses find. -/
theorem search_listing
    {archive : Archive naming} {criteria : Criteria}
    {indices : List String} {clauses : List Clause}
    (maxHits : Json)
    (hfound : ((archive.stored.filter fun document =>
        isTarget (",".intercalate indices) document.1).map Prod.snd).filterM
        (meets (some (Query.every clauses).toJson)) =
      (archive.found criteria).map (List.map SpanDocument.body))
    (hlimit : 0 < criteria.limit) :
    search archive.stored (",".intercalate indices)
      ((SearchRequest.build indices
        [.filters clauses, .aggregation (traceIdAggregation criteria.limit)]).toJson maxHits) =
      (archive.found criteria).map (listing criteria) := by
  show (List.filterM (meets (some (Query.every clauses).toJson)) _ >>= _) = _
  rw [hfound]
  cases archive.found criteria with
  | error failure => rfl
  | ok documents =>
      show (List.mapM (fun definition : String × Json => do
        let aggregation ← aggregate definition.2 (documents.map SpanDocument.body)
        return (definition.1, aggregation))
          [(Field.traceId, (traceIdAggregation criteria.limit).toJson)] >>= _) = _
      rw [List.mapM_cons, aggregate_traceIds documents hlimit]
      rfl

theorem mem_latestFirst {documents : List SpanDocument} {id : TraceId} :
    id ∈ latestFirst documents ↔ ∃ document ∈ documents, document.id = id := by
  rw [latestFirst, (List.mergeSort_perm _ _).mem_iff, List.mem_eraseDups, List.mem_map]

theorem nodup_latestFirst (documents : List SpanDocument) : (latestFirst documents).Nodup :=
  (List.mergeSort_perm _ _).nodup_iff.mpr (nodup_eraseDups _)

theorem exists_of_mem_selected
    {criteria : Criteria} {documents : List SpanDocument} {id : TraceId}
    (hmem : id ∈ selected criteria documents) :
    ∃ document ∈ documents, document.id = id :=
  mem_latestFirst.mp (List.mem_of_mem_take hmem)

theorem nodup_selected (criteria : Criteria) (documents : List SpanDocument) :
    (selected criteria documents).Nodup :=
  (nodup_latestFirst documents).sublist (List.take_sublist _ _)

theorem parse?_of_mem_selected
    {criteria : Criteria} {documents : List SpanDocument} {id : TraceId}
    (hmem : id ∈ selected criteria documents) :
    TraceId.parse? id.hex = some id := by
  obtain ⟨document, -, rfl⟩ := exists_of_mem_selected hmem
  exact document.traceId_eq.2

/-- The trace IDs of a response that lists the selected traces. -/
theorem traceIds_listing (criteria : Criteria) (documents : List SpanDocument) :
    Response.traceIds (listing criteria documents) =
      .ok ((selected criteria documents).map TraceId.hex) := by
  have hbuckets : Response.aggregationKeys (.obj [("buckets",
      .arr ((selected criteria documents).map (bucket documents)))]) =
      .ok ((selected criteria documents).map TraceId.hex) := by
    show List.mapM _ ((selected criteria documents).map (bucket documents)) = _
    rw [List.mapM_map]
    exact mapM_eq_ok fun id _ => rfl
  have hkeys : Response.bucketKeys (listing criteria documents) =
      .ok ((selected criteria documents).map TraceId.hex) := by
    show ((([(Field.traceId, Json.obj [("buckets",
      .arr ((selected criteria documents).map (bucket documents)))])].mapM fun member =>
        Response.aggregationKeys member.2).map List.flatten).mapError
          ResponseError.aggregations) = _
    rw [List.mapM_cons, hbuckets]
    show Except.ok (List.flatten [_]) = _
    rw [List.flatten_singleton]
  have hdistinct : ((selected criteria documents).map TraceId.hex).eraseDups =
      (selected criteria documents).map TraceId.hex := by
    rw [eraseDups_map, eraseDups_of_nodup (nodup_selected criteria documents)]
    intro a ha b hb heq
    have hparse := parse?_of_mem_selected ha
    rw [heq, parse?_of_mem_selected hb] at hparse
    exact (Option.some.inj hparse).symm
  have hvalid : ((selected criteria documents).map TraceId.hex).find?
      (fun key => (TraceId.parse? key).isNone) = none := by
    rw [List.find?_eq_none]
    intro key hmem
    obtain ⟨id, hid, rfl⟩ := List.mem_map.mp hmem
    simp [parse?_of_mem_selected hid]
  simp only [Response.traceIds, hkeys, bind, Except.bind, hdistinct, hvalid]
  rfl

/-! ### Documents -/

/-- The response that holds what was found. -/
def holding (found : List Json) : Json :=
  .obj [("hits", .obj [
    ("total", .single "value" (.int found.length)),
    ("hits", .arr (found.map (.single "_source")))])]

/-- A search without aggregations is answered with all documents that it finds, when they are no
more than it asks for. -/
theorem search_documents
    {documents : List (String × Json)} {found : List Json} {target : String} {indices : List String}
    {query : Option Query} {maxHits : Int}
    (hfound : ((documents.filter fun document => isTarget target document.1).map Prod.snd).filterM
      (meets (query.map Query.toJson)) = .ok found)
    (hhits : (found.length : Int) ≤ maxHits) :
    search documents target (SearchRequest.toJson ⟨indices, query, []⟩ (.int maxHits)) =
      .ok (holding found) := by
  have hall : firstOnes maxHits found = found := by
    rw [firstOnes, if_pos (by omega), List.take_of_length_le (by omega)]
  have hquery : (SearchRequest.toJson ⟨indices, query, []⟩ (.int maxHits)).member? "query" =
      query.map Query.toJson := by
    cases query <;> rfl
  have hsize : (memberIn "size" (SearchRequest.toJson ⟨indices, query, []⟩ (.int maxHits))).bind
      integerIn = .ok maxHits := rfl
  have haggregations : (SearchRequest.toJson ⟨indices, query, []⟩ (.int maxHits)).member? "aggs" =
      none := by
    cases query <;> rfl
  rw [search, hquery, hfound, ok_bind, hsize, ok_bind, haggregations, hall]
  rfl

/-- Documents that can be read are read in their order. -/
theorem documents_holding
    {α β : Type} {body : α → Json} {value : α → β} {read : Json → Checked β}
    (hread : ∀ document, read (body document) = .ok (value document))
    (record : String)
    (found : List α) :
    Response.documents record read (holding (found.map body)) = .ok (found.map value) := by
  show List.mapM (Response.readHit record read) ((found.map body).map (.single "_source")) = _
  rw [List.map_map, List.mapM_map]
  refine mapM_eq_ok fun document _ => ?_
  have hsource : ((Json.single "_source" (body document)).demand "_source").mapError
      ResponseError.hits = .ok (body document) := rfl
  simp only [Function.comp, Response.readHit, hsource, bind, Except.bind, hread]
  rfl

/-! ### The second phase -/

/-- The documents of listed traces. -/
def ofTraces (archive : Archive naming) (ids : List TraceId) : List SpanDocument :=
  archive.spans.filter fun document => ids.contains document.id

/-- The response that holds documents. -/
def hits (documents : List SpanDocument) : Json :=
  .obj [("hits", .obj [
    ("total", .single "value" (.int (documents.map SpanDocument.body).length)),
    ("hits", .arr ((documents.map SpanDocument.body).map (.single "_source")))])]

/-- The second phase finds the documents of the listed traces. -/
theorem search_fetch
    (hnaming : naming.IsLiteral)
    {archive : Archive naming} {ids : List TraceId} {maxHits : Int}
    (hids : ∀ id ∈ ids, TraceId.parse? id.hex = some id)
    (hhits : ((ofTraces archive ids).length : Int) ≤ maxHits) :
    search archive.stored (",".intercalate [naming.allPattern DocType.span])
      ((SearchRequest.build [naming.allPattern DocType.span]
        [.terms Field.traceId ((ids.map TraceId.hex).map .str)]).toJson (.int maxHits)) =
      .ok (hits (ofTraces archive ids)) := by
  have htest : ∀ document : SpanDocument,
      meets (some (Query.terms Field.traceId ((ids.map TraceId.hex).map .str)).toJson)
        document.body = .ok (ids.contains document.id) := by
    intro document
    rw [meets_terms, valuesAt_traceId, Except.ok.injEq, Bool.eq_iff_iff]
    simp only [List.any_cons, List.any_nil, Bool.or_false, List.any_map, List.any_eq_true,
      Function.comp, same_str, decide_eq_true_iff, List.contains_iff_mem]
    constructor
    · rintro ⟨id, hmem, heq⟩
      have hparse := document.traceId_eq.2
      rw [heq, hids id hmem] at hparse
      exact Option.some.inj hparse ▸ hmem
    · exact fun hmem => ⟨document.id, hmem, rfl⟩
  have hfound : ((archive.stored.filter fun document =>
      isTarget (",".intercalate [naming.allPattern DocType.span]) document.1).map
        Prod.snd).filterM
      (meets (some (Query.terms Field.traceId ((ids.map TraceId.hex).map .str)).toJson)) =
      .ok ((ofTraces archive ids).map SpanDocument.body) := by
    rw [filterM_stored, filterM_eq_ok fun document _ => htest document]
    · rfl
    · intro document _ htarget
      rwa [isTarget_allSpans hnaming] at htarget
    · intro document partition hstored hmem hfalse
      have htrue := isTarget_allSpans hnaming (.span document partition hstored)
      rw [StoredDocument.partition, hfalse] at htrue
      cases htrue
  refine search_documents hfound ?_
  rwa [List.length_map]

/-- The spans of a response that holds documents. -/
theorem spans_hits (documents : List SpanDocument) :
    Response.spans (hits documents) = .ok (documents.map SpanDocument.span) :=
  documents_holding SpanDocument.reads "Span" documents

end Archive
end TraceArchive
