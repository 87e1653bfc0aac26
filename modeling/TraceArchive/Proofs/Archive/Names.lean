import TraceArchive.Proofs.Archive.PointLookup
import TraceArchive.Proofs.Decoding
import TraceArchive.Proofs.Lookups

/-!
# Names are looked up without gaps

The lookups of names search only the partitions of a window for documents of the window, and list the
values of one or two fields of what they find.  As long as there are no more values of a field than
the backend gives buckets, that is what a look at every span document gives.

* `NamedSpan`, `NamedDocument`: documents of which no more is known than that names are texts.
* `filterM_reached`: the partitions of a window hold all documents of the window.
* `aggregate_names`: the buckets of a field are those of the names in it.
* `Lookup.ListsNames`, `listsNames`: a lookup of names comes to these in increasing order.
* `names_of_window`: the names of services, and those of the spans of a service.
-/

set_option autoImplicit false

namespace TraceArchive

open Archive

/-- The fields of a span document that hold names. -/
def nameFields : List String :=
  [Field.localService, Field.remoteService, Field.spanName]

/-- A span document.  It has a timestamp in milliseconds, and whatever names it has are texts. -/
structure NamedSpan where
  members : Members
  millis : Int
  hasMillis : Entries.get? Field.timestampMillis members = some (.int millis)
  areTexts : ∀ field ∈ nameFields, ∀ value ∈ valuesAt field (.obj members), ∃ text, value = .str text

namespace NamedSpan

/-- The document as a value. -/
def body (document : NamedSpan) : Json :=
  .obj document.members

/-- The names in a field. -/
def names (document : NamedSpan) (field : String) : List String :=
  (valuesAt field document.body).filterMap Json.text?

/-- The document lies in a window, both ends included. -/
def LiesIn (document : NamedSpan) (begin last : Int) : Prop :=
  begin ≤ document.millis ∧ document.millis ≤ last

instance (document : NamedSpan) (begin last : Int) : Decidable (document.LiesIn begin last) :=
  inferInstanceAs (Decidable (_ ∧ _))

theorem valuesAt_names
    (document : NamedSpan) {field : String}
    (hfield : field ∈ nameFields) :
    valuesAt field document.body = (document.names field).map .str := by
  have htexts := document.areTexts field hfield
  show _ = (List.filterMap Json.text? (valuesAt field document.body)).map Json.str
  change ∀ value ∈ valuesAt field document.body, _ at htexts
  generalize valuesAt field document.body = values at htexts ⊢
  induction values with
  | nil => rfl
  | cons value rest ih =>
      obtain ⟨⟨text, rfl⟩, hrest⟩ := List.forall_mem_cons.mp htexts
      have htext : Json.text? (.str text) = some text := rfl
      rw [List.filterMap_cons_some htext, List.map_cons, ← ih hrest]

theorem valuesAt_millis (document : NamedSpan) :
    valuesAt Field.timestampMillis document.body = [.int document.millis] :=
  valuesAt_of_get? (by decide) document.hasMillis nofun

end NamedSpan

/-- A document in its partition: that of a span, or any other of a day. -/
inductive NamedDocument (naming : Naming) where
  | span
      (document : NamedSpan)
      (partition : String)
      (stored : naming.ofMillis DocType.span document.millis = .ok partition)
  | dependency
      (body : Json)
      (day : Int)
      (partition : String)
      (stored : naming.ofMillis DocType.dependency day = .ok partition)

namespace NamedDocument

variable {naming : Naming}

/-- The partition of a document and the document as a value, as the backend has them. -/
def stored : NamedDocument naming → String × Json
  | span document partition _ => (partition, document.body)
  | dependency body _ partition _ => (partition, body)

/-- The span document that a document is, if it is one. -/
def span? : NamedDocument naming → Option NamedSpan
  | span document _ _ => some document
  | dependency _ _ _ _ => none

/-- Documents in storage order, as the backend has them. -/
def allStored (documents : List (NamedDocument naming)) : List (String × Json) :=
  documents.map stored

/-- All span documents. -/
def spans (documents : List (NamedDocument naming)) : List NamedSpan :=
  documents.filterMap span?

@[simp] theorem allStored_cons_span
    (document : NamedSpan) (partition : String)
    (h : naming.ofMillis DocType.span document.millis = .ok partition)
    (rest : List (NamedDocument naming)) :
    allStored (.span document partition h :: rest) =
      (partition, document.body) :: allStored rest := rfl

@[simp] theorem allStored_cons_dependency
    (body : Json) (day : Int) (partition : String)
    (h : naming.ofMillis DocType.dependency day = .ok partition)
    (rest : List (NamedDocument naming)) :
    allStored (.dependency body day partition h :: rest) = (partition, body) :: allStored rest := rfl

@[simp] theorem spans_cons_span
    (document : NamedSpan) (partition : String)
    (h : naming.ofMillis DocType.span document.millis = .ok partition)
    (rest : List (NamedDocument naming)) :
    spans (.span document partition h :: rest) = document :: spans rest := rfl

@[simp] theorem spans_cons_dependency
    (body : Json) (day : Int) (partition : String)
    (h : naming.ofMillis DocType.dependency day = .ok partition)
    (rest : List (NamedDocument naming)) :
    spans (.dependency body day partition h :: rest) = spans rest := rfl

end NamedDocument

/-- The different names in a field, in the order in which they are first seen. -/
def distinctNames (documents : List NamedSpan) (field : String) : List String :=
  (documents.flatMap fun document => document.names field).eraseDups

theorem mem_distinctNames {documents : List NamedSpan} {field name : String} :
    name ∈ distinctNames documents field ↔
      ∃ document ∈ documents, name ∈ document.names field := by
  rw [distinctNames, List.mem_eraseDups, List.mem_flatMap]

theorem nodup_distinctNames (documents : List NamedSpan) (field : String) :
    (distinctNames documents field).Nodup :=
  nodup_eraseDups _

/-- There are no more different names in a field than the backend gives buckets. -/
def FewNames (documents : List NamedSpan) (field : String) : Prop :=
  ((distinctNames documents field).length : Int) ≤ maxBuckets

instance (documents : List NamedSpan) (field : String) : Decidable (FewNames documents field) :=
  inferInstanceAs (Decidable (_ ≤ _))

namespace Archive

variable {naming : Naming}

/-! ### What a search finds -/

/-- Filtering the documents that a search reaches is filtering the span documents, when it reaches
all of them that are kept, and no others. -/
theorem filterM_reached
    {documents : List (NamedDocument naming)} {target : String}
    {check : Json → Except Failure Bool} {keep : NamedSpan → Bool}
    (hcheck : ∀ document : NamedSpan, check document.body = .ok (keep document))
    (hkept : ∀ (document : NamedSpan) (partition : String),
      naming.ofMillis DocType.span document.millis = .ok partition → keep document = true →
        isTarget target partition = true)
    (hother : ∀ day partition, naming.ofMillis DocType.dependency day = .ok partition →
      isTarget target partition = false) :
    (((NamedDocument.allStored documents).filter fun document => isTarget target document.1).map
        Prod.snd).filterM check =
      .ok (((NamedDocument.spans documents).filter keep).map NamedSpan.body) := by
  induction documents with
  | nil => rfl
  | cons document rest ih =>
      cases document with
      | span document partition hstored =>
          have hreached := hkept document partition hstored
          simp only [NamedDocument.allStored_cons_span, NamedDocument.spans_cons_span,
            List.filter_cons]
          cases htarget : isTarget target partition with
          | true =>
              rw [if_pos rfl, List.map_cons, filterM_cons, hcheck, ok_bind, ih]
              cases keep document <;> rfl
          | false =>
              have hrejected : keep document = false := by
                cases hkeep : keep document with
                | false => rfl
                | true => exact absurd (hreached hkeep) (by simp [htarget])
              rw [if_neg Bool.false_ne_true, ih, hrejected]
              rfl
      | dependency body day partition hstored =>
          have htarget := hother day partition hstored
          simp only [NamedDocument.allStored_cons_dependency, NamedDocument.spans_cons_dependency,
            List.filter_cons, htarget]
          exact ih

/-- The entries of blocks of span partitions reach no partition of dependencies. -/
theorem isTarget_blocks_dependency
    (hnaming : naming.IsLiteral)
    {blocks : List Block}
    (hnil : blocks ≠ [])
    {day : Int} {partition : String}
    (hstored : naming.ofMillis DocType.dependency day = .ok partition) :
    isTarget (",".intercalate (blocks.map (naming.ofBlock DocType.span))) partition = false := by
  obtain ⟨day, -, rfl⟩ := exists_ofDate hstored
  exact isTarget_ofBlock_eq_false hnaming isLiteral_span hnil (not_stem_prefix_dependency naming _)

/-! ### Buckets of names -/

/-- The number of documents that have a name in a field. -/
def documentCount (documents : List NamedSpan) (field name : String) : Nat :=
  (documents.filter fun document => (document.names field).contains name).length

/-- The names in a field, those in the most documents first. -/
def commonest (documents : List NamedSpan) (field : String) : List String :=
  (distinctNames documents field).mergeSort fun a b =>
    decide (documentCount documents field b ≤ documentCount documents field a)

theorem mem_commonest {documents : List NamedSpan} {field name : String} :
    name ∈ commonest documents field ↔ ∃ document ∈ documents, name ∈ document.names field := by
  rw [commonest, (List.mergeSort_perm _ _).mem_iff, mem_distinctNames]

/-- The bucket of a name. -/
def nameBucket (documents : List NamedSpan) (field name : String) : Json :=
  .obj [("key", .str name), ("doc_count", .int (documentCount documents field name))]

/-- The bucket of a name with what it is ordered by: the number of documents, the largest first. -/
def rankedName (documents : List NamedSpan) (field name : String) : (Int × Bool) × Json :=
  (((documentCount documents field name : Int), true), nameBucket documents field name)

theorem keyed_names
    (document : NamedSpan) {field : String}
    (hfield : field ∈ nameFields) :
    keyed field document.body = .ok (document.names field, document.body) := by
  have hread : ((document.names field).map Json.str).mapM textIn = .ok (document.names field) := by
    have hid : (document.names field).mapM (textIn ∘ Json.str) =
        .ok ((document.names field).map id) := mapM_eq_ok fun text _ => rfl
    rw [List.mapM_map, hid, List.map_id]
  rw [keyed, document.valuesAt_names hfield, hread]
  rfl

theorem rankedBucket_name (documents : List NamedSpan) (field name : String) :
    rankedBucket [] none
      (documents.map fun document => (document.names field, document.body)) name =
      .ok (rankedName documents field name) := by
  have hcount : (((documents.map fun document => (document.names field, document.body)).filter
      fun entry => entry.1.contains name).map Prod.snd).length =
      documentCount documents field name := by
    rw [List.filter_map, List.map_map, List.length_map]
    rfl
  rw [rankedBucket, bucketOf, hcount]
  rfl

/-- In their order, the buckets of all names are those of the commonest ones first. -/
theorem mergeSort_rankedNames (documents : List NamedSpan) (field : String) :
    ((distinctNames documents field).map (rankedName documents field)).mergeSort
        (fun a b => inOrder a.1 b.1) =
      (commonest documents field).map (rankedName documents field) := by
  symm
  apply List.map_mergeSort
  intro a _ b _
  simp [inOrder, rankedName]

/-- The buckets of a field are those of the names in it. -/
theorem aggregate_names
    {documents : List NamedSpan} {field : String}
    (hfield : field ∈ nameFields)
    (hfew : FewNames documents field) :
    aggregate (Aggregation.terms field maxBuckets).toJson (documents.map NamedSpan.body) =
      .ok (.obj [("buckets",
        .arr ((commonest documents field).map (nameBucket documents field)))]) := by
  have hkeyed : (documents.map NamedSpan.body).mapM (keyed field) =
      .ok (documents.map fun document => (document.names field, document.body)) := by
    rw [List.mapM_map]
    exact mapM_eq_ok fun document _ => keyed_names document hfield
  have hkeys : ((documents.map fun document => (document.names field, document.body)).flatMap
      Prod.fst).eraseDups = distinctNames documents field := by
    rw [List.flatMap_map]
    rfl
  have hranked : (distinctNames documents field).mapM (rankedBucket [] none
        (documents.map fun document => (document.names field, document.body))) =
      .ok ((distinctNames documents field).map (rankedName documents field)) :=
    mapM_eq_ok fun name _ => rankedBucket_name documents field name
  have hall : firstOnes maxBuckets ((commonest documents field).map (nameBucket documents field)) =
      (commonest documents field).map (nameBucket documents field) := by
    have hlength : ((commonest documents field).length : Int) ≤ maxBuckets := by
      rw [commonest, List.length_mergeSort]
      exact hfew
    rw [firstOnes, if_pos (by decide), List.take_of_length_le]
    rw [List.length_map]
    omega
  show ((documents.map NamedSpan.body).mapM (keyed field) >>= _) = _
  rw [hkeyed]
  show ((((documents.map fun document => (document.names field, document.body)).flatMap
    Prod.fst).eraseDups.mapM (rankedBucket [] none
      (documents.map fun document => (document.names field, document.body)))) >>= _) = _
  rw [hkeys, hranked]
  show Except.ok (Json.obj [("buckets", .arr (firstOnes maxBuckets (List.map Prod.snd
    (List.mergeSort _ fun a b => inOrder a.1 b.1))))]) = _
  rw [mergeSort_rankedNames, List.map_map]
  exact congrArg (fun buckets => Except.ok (Json.obj [("buckets", .arr buckets)])) hall

/-! ### The request and its response -/

theorem foldl_add_aggregations (aggregations : List Aggregation) (request : SearchRequest) :
    (aggregations.map SearchRequest.Part.aggregation).foldl SearchRequest.add request =
      { request with aggregations := request.aggregations ++ aggregations } := by
  induction aggregations generalizing request with
  | nil => simp
  | cons aggregation rest ih =>
      rw [List.map_cons, List.foldl_cons, ih, SearchRequest.add, List.append_assoc]
      rfl

/-- The aggregations of different fields stand in their order. -/
theorem membersOf_terms
    {fields : List String} {members : List (String × Json)}
    (hnodup : fields.Nodup)
    (hfresh : ∀ field ∈ fields, field ∉ Entries.keys members) :
    Aggregation.membersOf (fields.map fun field => .terms field maxBuckets) members =
      members ++ fields.map fun field => (field, (Aggregation.terms field maxBuckets).toJson) := by
  induction fields generalizing members with
  | nil => simp [Aggregation.membersOf]
  | cons field rest ih =>
      obtain ⟨hfield, hrest⟩ := List.nodup_cons.mp hnodup
      have hput : Entries.put field (Aggregation.terms field maxBuckets).toJson members =
          members ++ [(field, (Aggregation.terms field maxBuckets).toJson)] :=
        Entries.put_of_notMem (hfresh field List.mem_cons_self) _
      rw [List.map_cons, Aggregation.membersOf]
      show Aggregation.membersOf _ (Entries.put field _ members) = _
      rw [hput, ih hrest, List.append_assoc, List.map_cons]
      · rfl
      · intro other hmem hkey
        rw [Entries.keys, List.map_append, List.mem_append] at hkey
        rcases hkey with hold | hnew
        · exact hfresh other (List.mem_cons_of_mem field hmem) hold
        · obtain rfl : other = field := List.mem_singleton.mp hnew
          exact hfield hmem

/-- The response that lists the names in some fields of documents. -/
def namesListing (documents : List NamedSpan) (fields : List String) : Json :=
  .obj [
    ("hits", .obj [
      ("total", .single "value" (.int (documents.map NamedSpan.body).length)),
      ("hits", .arr [])]),
    ("aggregations", .obj (fields.map fun field => (field, .obj [("buckets",
      .arr ((commonest documents field).map (nameBucket documents field)))])))]

/-- A search for the names in some fields lists those of the documents that meet its query. -/
theorem search_names
    {stored : List (String × Json)} {target : String} {indices : List String} {query : Query}
    {found : List NamedSpan} {fields : List String}
    (maxHits : Json)
    (hfound : ((stored.filter fun document => isTarget target document.1).map Prod.snd).filterM
      (meets (some query.toJson)) = .ok (found.map NamedSpan.body))
    (hnil : fields ≠ [])
    (hnodup : fields.Nodup)
    (hfields : ∀ field ∈ fields, field ∈ nameFields)
    (hfew : ∀ field ∈ fields, FewNames found field) :
    search stored target (SearchRequest.toJson
      ⟨indices, some query, fields.map fun field => .terms field maxBuckets⟩ maxHits) =
      .ok (namesListing found fields) := by
  cases fields with
  | nil => exact absurd rfl hnil
  | cons field rest =>
      have hmembers : Aggregation.membersOf
          ((field :: rest).map fun field => .terms field maxBuckets) [] = _ :=
        membersOf_terms hnodup fun _ _ => List.not_mem_nil
      have hlisted : ((field :: rest).map fun field =>
          (field, (Aggregation.terms field maxBuckets).toJson)).mapM
          (fun definition : String × Json => do
            let aggregation ← aggregate definition.2 (found.map NamedSpan.body)
            return (definition.1, aggregation)) =
          .ok ((field :: rest).map fun field => (field, .obj [("buckets",
            .arr ((commonest found field).map (nameBucket found field)))])) := by
        rw [List.mapM_map]
        refine mapM_eq_ok fun other hmem => ?_
        rw [Function.comp, aggregate_names (hfields other hmem) (hfew other hmem)]
        rfl
      show (List.filterM (meets (some query.toJson)) _ >>= _) = _
      rw [hfound]
      show (List.mapM (fun definition : String × Json => do
        let aggregation ← aggregate definition.2 (found.map NamedSpan.body)
        return (definition.1, aggregation))
          (Aggregation.membersOf ((field :: rest).map fun field => .terms field maxBuckets) []) >>=
            _) = _
      rw [hmembers, List.nil_append, hlisted]
      rfl

/-- The keys of the response are the names of the documents. -/
theorem listsKeys_namesListing (documents : List NamedSpan) (fields : List String) :
    Response.ListsKeys (namesListing documents fields) (fields.flatMap (commonest documents)) := by
  refine ⟨_, fields.map (commonest documents), .obj rfl, ?_, List.flatMap_def.symm⟩
  rw [List.map_map, List.forall₂_map_left_iff, List.forall₂_map_right_iff, List.forall₂_same]
  intro field _
  refine ⟨_, ⟨_, rfl, .arr _⟩, ?_⟩
  rw [List.forall₂_map_left_iff, List.forall₂_same]
  exact fun name _ => ⟨.str name, rfl, rfl⟩

/-! ### The lookups -/

/-- A lookup succeeds, and comes to the names that something holds of, in increasing order. -/
def ListsNames
    (result : Except LookupError Lookup)
    (backend : Backend)
    (holds : String → Prop) : Prop :=
  ∃ lookup names, result = .ok lookup ∧
    (Session.execution backend lookup.plan).SettlesWith (.ok (.ofTexts names)) ∧
    names.Pairwise (· < ·) ∧ ∀ name, name ∈ names ↔ holds name

theorem ListsNames.congr
    {result : Except LookupError Lookup} {backend : Backend} {holds other : String → Prop}
    (h : ListsNames result backend holds)
    (hiff : ∀ name, holds name ↔ other name) :
    ListsNames result backend other := by
  obtain ⟨lookup, names, hresult, hsettles, hsorted, hnames⟩ := h
  exact ⟨lookup, names, hresult, hsettles, hsorted, fun name => (hnames name).trans (hiff name)⟩

/-- A search for names comes to the keys of its reply, each once. -/
theorem listsNames_of_reply
    {result : Except LookupError Lookup} {backend : Backend} {search : Search} {log : List String}
    {body : Json} {keys : List String} {holds : String → Prop}
    (hresult : result = .ok ⟨.search search, log⟩)
    (hreading : search.reading = .sortedKeys)
    (hgate : ∀ count asked, (backend count asked).gate = none)
    (hreply : (backend 0 search).result = .ok body)
    (hkeys : Response.ListsKeys body keys)
    (hholds : ∀ name, name ∈ keys ↔ holds name) :
    ListsNames result backend holds := by
  have hmem : ∀ name, name ∈ keys.eraseDups.mergeSort (fun a b => !decide (b < a)) ↔ name ∈ keys := by
    simp
  have hread := Response.sortedKeys_eq_ok_iff.mpr
    ⟨keys, hkeys, Response.pairwise_lt_sorted keys, hmem⟩
  have hanswer : Session.answerOf search (backend 0 search).result =
      .ok (.ofTexts (keys.eraseDups.mergeSort fun a b => !decide (b < a))) := by
    rw [Session.answerOf, hreply]
    show (search.reading.read body).mapError _ = _
    rw [hreading, Response.Reading.read, hread]
    rfl
  exact ⟨_, _, hresult, hanswer ▸ Session.settlesWith_plainSearch hgate search,
    Response.pairwise_lt_sorted keys, fun name => (hmem name).trans (hholds name)⟩

/-- Among fewer documents there are no more names. -/
theorem fewNames_filter
    {documents : List NamedSpan} {field : String}
    (h : FewNames documents field)
    (keep : NamedSpan → Bool) :
    FewNames (documents.filter keep) field := by
  have hsubset : distinctNames (documents.filter keep) field ⊆ distinctNames documents field := by
    intro name hmem
    obtain ⟨document, hdocument, hname⟩ := mem_distinctNames.mp hmem
    exact mem_distinctNames.mpr ⟨document, (List.mem_filter.mp hdocument).1, hname⟩
  have hlength := (List.subperm_of_subset (nodup_distinctNames _ field) hsubset).length_le
  rw [FewNames] at h ⊢
  omega

theorem meets_window
    {clauses : List Clause} {keep : NamedSpan → Bool}
    (hclauses : ∀ document : NamedSpan,
      clauses.allM (Clause.test document.body) = .ok (keep document))
    (begin last : Int)
    (document : NamedSpan) :
    meets (some (Query.every
      (.range Field.timestampMillis (.int begin) (some (.int last)) :: clauses)).toJson)
        document.body =
      .ok (decide (document.LiesIn begin last) && keep document) := by
  have hwindow : Clause.test document.body
      (.range Field.timestampMillis (.int begin) (some (.int last))) =
      .ok (decide (document.LiesIn begin last)) := by
    show (valuesAt Field.timestampMillis document.body).anyM
      (isWithin (some (.int begin)) (some (.int last))) = _
    rw [document.valuesAt_millis, List.anyM, isWithin_int]
    show _ = Except.ok (decide (begin ≤ document.millis ∧ document.millis ≤ last))
    cases decide (begin ≤ document.millis ∧ document.millis ≤ last) <;> rfl
  rw [meets_every, List.allM, hwindow, ok_bind, hclauses]
  cases decide (document.LiesIn begin last) <;> rfl

section Lookups

variable {store : SpanStore} {documents : List (NamedDocument store.naming)} {now lookback : Int}

/-- The request for the names in some fields, with its parts in place. -/
theorem request_namesSearch
    (begin : Millis) (clauses : List Clause) (fields indices : List String) :
    (store.namesSearch begin now clauses fields indices).request =
      ⟨indices,
        some (.every (.range Field.timestampMillis begin.toJson (some (.int now)) :: clauses)),
        fields.map fun field => .terms field maxBuckets⟩ := by
  have hparts : fields.map (fun field => SearchRequest.Part.aggregation (.terms field maxBuckets)) =
      (fields.map fun field => Aggregation.terms field maxBuckets).map .aggregation := by
    rw [List.map_map]
    rfl
  rw [SpanStore.namesSearch, SearchRequest.build, List.foldl_cons, hparts, foldl_add_aggregations]
  rfl

/-- A lookup of names comes to those in the documents of the window that satisfy its clauses. -/
theorem listsNames
    (hlookback : store.namesLookback = some (.whole lookback))
    (hpos : 0 < lookback)
    (hnaming : store.naming.IsLiteral)
    (hbegin : Calendar.firstDay ≤ (now - lookback) / 86400000)
    (hnow : now / 86400000 < Calendar.lastDay)
    {clauses : List Clause} {keep : NamedSpan → Bool}
    (hclauses : ∀ document : NamedSpan,
      clauses.allM (Clause.test document.body) = .ok (keep document))
    {fields : List String}
    (hnil : fields ≠ [])
    (hnodup : fields.Nodup)
    (hfields : ∀ field ∈ fields, field ∈ nameFields)
    (hfew : ∀ field ∈ fields, FewNames (NamedDocument.spans documents) field) :
    ListsNames (store.names now clauses fields) (backend (NamedDocument.allStored documents))
      fun name => ∃ document ∈ NamedDocument.spans documents,
        document.LiesIn (now - lookback) now ∧ keep document = true ∧
          ∃ field ∈ fields, name ∈ document.names field := by
  obtain ⟨blocks, hblocks, hcalendar, hcount, hempty⟩ :=
    store.naming.ofRange_spec DocType.span (now - lookback) now hbegin (by omega) (by omega) hnow
  have hsome : blocks ≠ [] := fun h => by
    have := hempty.mp h
    omega
  -- the lookup is a search, since its window holds a day
  have hstart : store.namesBegin now = .ok (.whole (now - lookback)) := by
    rw [SpanStore.namesBegin, hlookback]
    rfl
  have hpartitions : store.partitions DocType.span (.whole (now - lookback)) (.whole now) =
      .ok (blocks.map (store.naming.ofBlock DocType.span)) :=
    congrArg (Except.mapError LookupError.date) hblocks
  have hlookup := SpanStore.names_of_partitions hstart hpartitions (by simpa using hsome) clauses
    fields
  -- it finds the documents of the window, and lists their names
  have hreply : (backend (NamedDocument.allStored documents) 0
      (store.namesSearch (.whole (now - lookback)) now clauses fields
        (blocks.map (store.naming.ofBlock DocType.span)))).result =
      .ok (namesListing ((NamedDocument.spans documents).filter fun document =>
        decide (document.LiesIn (now - lookback) now) && keep document) fields) := by
    show search _ (SearchRequest.target _) (SearchRequest.toJson _ store.maxHits) = _
    rw [request_namesSearch]
    refine search_names store.maxHits ?_ hnil hnodup hfields fun field hmem =>
      fewNames_filter (hfew field hmem) _
    refine filterM_reached (meets_window hclauses (now - lookback) now) ?_ ?_
    · intro document partition hstored hkeep
      obtain ⟨hle, hge⟩ := of_decide_eq_true (Bool.and_eq_true_iff.mp hkeep).1
      exact isTarget_of_inWindow hnaming hbegin (Int.le_of_lt hnow) hcalendar hcount hstored hle hge
    · exact fun day partition hstored => isTarget_blocks_dependency hnaming hsome hstored
  refine listsNames_of_reply hlookup rfl (fun _ _ => rfl) hreply (listsKeys_namesListing _ _) ?_
  intro name
  simp only [List.mem_flatMap, mem_commonest, List.mem_filter, Bool.and_eq_true, decide_eq_true_iff]
  constructor
  · rintro ⟨field, hfield, document, ⟨hdocument, hlies, hkeep⟩, hname⟩
    exact ⟨document, hdocument, hlies, hkeep, field, hfield, hname⟩
  · rintro ⟨document, hdocument, hlies, hkeep, field, hfield, hname⟩
    exact ⟨field, hfield, document, ⟨hdocument, hlies, hkeep⟩, hname⟩

end Lookups

/-- A document has a local service just when it meets the condition on it. -/
theorem test_localService (service : String) (document : NamedSpan) :
    [Clause.equals Field.localService service].allM (Clause.test document.body) =
      .ok (decide (service ∈ document.names Field.localService)) := by
  have htest : Clause.test document.body (.equals Field.localService service) =
      .ok (decide (service ∈ document.names Field.localService)) := by
    show Except.ok ((valuesAt Field.localService document.body).any (same (.str service))) = _
    rw [document.valuesAt_names (by decide), Except.ok.injEq, Bool.eq_iff_iff]
    simp only [List.any_map, List.any_eq_true, Function.comp, same_str, decide_eq_true_iff,
      exists_eq_right']
  rw [List.allM, htest, ok_bind]
  cases decide (service ∈ document.names Field.localService) <;> rfl

/-- **Just the names of the window.**  With a configuration that was read, a window within the
calendar and no more different names in the fields than the backend gives buckets, the lookup of
services comes to the local and remote services of the span documents of the window, and the lookup
of spans to the names of those that the service has recorded, in increasing order. -/
theorem names_of_window
    {data : Json} {config : StoreConfig}
    (valid : StoreConfig.read data = .ok config)
    (hnaming : config.store.naming.IsLiteral)
    {now : Int}
    (hbegin : Calendar.firstDay ≤ (now - config.namesLookback) / 86400000)
    (hnow : now / 86400000 < Calendar.lastDay)
    (documents : List (NamedDocument config.store.naming)) :
    (FewNames (NamedDocument.spans documents) Field.localService →
      FewNames (NamedDocument.spans documents) Field.remoteService →
      ListsNames (config.store.serviceNames now) (backend (NamedDocument.allStored documents))
        fun name => ∃ document ∈ NamedDocument.spans documents,
          document.LiesIn (now - config.namesLookback) now ∧
            (name ∈ document.names Field.localService ∨ name ∈ document.names Field.remoteService)) ∧
    ∀ service ≠ "", FewNames (NamedDocument.spans documents) Field.spanName →
      ListsNames (config.store.spanNames now (some service))
        (backend (NamedDocument.allStored documents))
        fun name => ∃ document ∈ NamedDocument.spans documents,
          document.LiesIn (now - config.namesLookback) now ∧
            Text.lower service ∈ document.names Field.localService ∧
              name ∈ document.names Field.spanName := by
  have hpos := StoreConfig.namesLookback_pos valid
  constructor
  · intro hlocal hremote
    have hclauses : ∀ document : NamedSpan,
        ([] : List Clause).allM (Clause.test document.body) = .ok true := fun _ => rfl
    have hfew : ∀ field ∈ [Field.localService, Field.remoteService],
        FewNames (NamedDocument.spans documents) field := by simpa using ⟨hlocal, hremote⟩
    refine ListsNames.congr (listsNames rfl hpos hnaming hbegin hnow hclauses (List.cons_ne_nil _ _)
      (by decide) (by decide) hfew) fun name => ?_
    simp
  · intro service hservice hfew
    have hfield : ∀ field ∈ [Field.spanName], FewNames (NamedDocument.spans documents) field := by
      simpa using hfew
    have hlookup : config.store.spanNames now (some service) =
        config.store.names now [.equals Field.localService (Text.lower service)]
          [Field.spanName] := by
      rw [SpanStore.spanNames, Option.filter_some, if_pos (decide_eq_true hservice)]
    rw [hlookup]
    refine ListsNames.congr (listsNames rfl hpos hnaming hbegin hnow
      (test_localService (Text.lower service)) (List.cons_ne_nil _ _) (by decide) (by decide)
      hfield) fun name => ?_
    simp

/-! ### A small archive -/

/-- The document of a span with nothing but a timestamp and its names. -/
def callSpan (millis : Int) (caller callee name : String) : NamedSpan where
  members := [(Field.timestampMillis, .int millis),
    ("localEndpoint", .single "serviceName" (.str caller)),
    ("remoteEndpoint", .single "serviceName" (.str callee)), (Field.spanName, .str name)]
  millis := millis
  hasMillis := rfl
  areTexts := by
    intro field hfield value hvalue
    simp only [nameFields, List.mem_cons, List.not_mem_nil, or_false] at hfield
    rcases hfield with rfl | rfl | rfl
    · exact ⟨caller, List.mem_singleton.mp hvalue⟩
    · exact ⟨callee, List.mem_singleton.mp hvalue⟩
    · exact ⟨name, List.mem_singleton.mp hvalue⟩

/-- The configuration with the defaults. -/
def defaultConfig : StoreConfig := ⟨"zipkin", "-", true, 86400000, 10000⟩

/-- Spans just before a day's window, at its start and at its end, with a document that is none
between them. -/
def callDocuments : List (NamedDocument defaultConfig.store.naming) :=
  [.span (callSpan 1456790399998 "mail" "disk" "send") "zipkin-span-2016-02-29" rfl,
    .span (callSpan 1456790399999 "web" "cart" "get") "zipkin-span-2016-02-29" rfl,
    .dependency .null 1456790400000 "zipkin-dependency-2016-03-01" rfl,
    .span (callSpan 1456876799999 "cart" "web" "post") "zipkin-span-2016-03-01" rfl]

theorem names_callSpan (millis : Int) (caller callee name : String) :
    (callSpan millis caller callee name).names Field.localService = [caller] ∧
      (callSpan millis caller callee name).names Field.remoteService = [callee] ∧
      (callSpan millis caller callee name).names Field.spanName = [name] :=
  ⟨rfl, rfl, rfl⟩

theorem fewNames_callDocuments :
    ∀ field ∈ nameFields, FewNames (NamedDocument.spans callDocuments) field := by
  decide

/-- Both ends of the window count, and the span just before it does not. -/
theorem names_of_window_callDocuments :
    ListsNames (defaultConfig.store.serviceNames 1456876799999)
        (backend (NamedDocument.allStored callDocuments)) (· ∈ ["cart", "web"]) ∧
      ListsNames (defaultConfig.store.spanNames 1456876799999 (some "WEB"))
        (backend (NamedDocument.allStored callDocuments)) (· ∈ ["get"]) := by
  have hread : StoreConfig.read (.obj []) = .ok defaultConfig := rfl
  have hbegin : Calendar.firstDay ≤
      ((1456876799999 : Int) - defaultConfig.namesLookback) / 86400000 := by decide
  obtain ⟨hservices, hspans⟩ := names_of_window hread ⟨by decide, by decide⟩ hbegin (by decide)
    callDocuments
  have hfew := fewNames_callDocuments
  have hdocuments : NamedDocument.spans callDocuments =
      [callSpan 1456790399998 "mail" "disk" "send", callSpan 1456790399999 "web" "cart" "get",
        callSpan 1456876799999 "cart" "web" "post"] := rfl
  have hwithin : ¬ (callSpan 1456790399998 "mail" "disk" "send").LiesIn
      (1456876799999 - defaultConfig.namesLookback) 1456876799999 ∧
    (callSpan 1456790399999 "web" "cart" "get").LiesIn
      (1456876799999 - defaultConfig.namesLookback) 1456876799999 ∧
    (callSpan 1456876799999 "cart" "web" "post").LiesIn
      (1456876799999 - defaultConfig.namesLookback) 1456876799999 := by decide
  have hlower : Text.lower "WEB" = "web" := by decide
  rw [hdocuments] at hservices hspans hfew
  constructor
  · refine ListsNames.congr (hservices (hfew _ (by decide)) (hfew _ (by decide))) fun name => ?_
    simp [hwithin, names_callSpan, or_comm]
  · refine ListsNames.congr (hspans "WEB" (by decide) (hfew _ (by decide))) fun name => ?_
    simp [hwithin, names_callSpan, hlower]

end Archive
end TraceArchive
