import TraceArchive.Proofs.Decoding
import TraceArchive.Proofs.Instants
import TraceArchive.Proofs.Partition
import TraceArchive.Proofs.Validation
import TraceArchive.Store.Lookup

/-!
# What lookups plan

Every lookup that looks for a window first makes the list of the partitions of its days.  When there
are none its plan is the empty list, since a search without partitions would be one of all of them.

* `Partition.blocksFrom_eq_nil_iff`, `SpanStore.partitions_eq_nil_iff`: there are no partitions just
  when the window ends on a day before the one on which it begins.
* `traces_eq_ok`, `names_eq_ok`, `spanNames_eq_ok`, `dependencies_eq_ok`: the plan of each lookup,
  when it has one.
* `Plan.Asks`, `namesIndices_of_gives`: every search of a lookup names indices.
* `traces_eq_emptyList_iff`, `dependencies_eq_emptyList_iff`, `spanNames_eq_emptyList_iff`,
  `serviceNames_ne_emptyList`: when the plan is the empty list.
-/

set_option autoImplicit false

namespace TraceArchive

namespace Partition

/-- The blocks of a range are none just when the range is empty. -/
theorem blocksFrom_eq_nil_iff
    {day last : Int} {blocks : List Block}
    (h : blocksFrom day last = .ok blocks) :
    blocks = [] ↔ last < day := by
  refine ⟨fun hnil => ?_, eq_nil_of_blocksFrom h⟩
  by_contra hlt
  obtain ⟨rest, hcons, -⟩ := exists_rest_of_blocksFrom h (by omega)
  exact absurd (hcons.symm.trans hnil) (List.cons_ne_nil _ _)

end Partition

namespace Naming

variable {naming : Naming} {docType : String}

/-- The entries for a range of instants are those of the blocks of its days. -/
theorem ofInstants_eq_ok
    {begin last : Millis} {entries : List String}
    (h : naming.ofInstants docType begin last = .ok entries) :
    ∃ first final blocks, begin.day = .ok first ∧ last.day = .ok final ∧
      Partition.blocksFrom first final = .ok blocks ∧
        entries = blocks.map (naming.ofBlock docType) := by
  simp only [ofInstants, bind_eq_ok_iff] at h
  obtain ⟨first, hfirst, final, hfinal, blocks, hblocks, hentries⟩ := h
  cases hentries
  exact ⟨first, final, blocks, hfirst, hfinal, hblocks, rfl⟩

/-- What the names of partitions start with has a hyphen in it, at least. -/
theorem stem_ne_empty : naming.stem docType ≠ "" := by
  intro h
  have hlength := congrArg (fun text => text.toList.length) h
  simp [stem] at hlength

theorem stem_append_ne_empty (rest : String) : naming.stem docType ++ rest ≠ "" := by
  intro h
  rw [String.append_eq_empty_iff] at h
  exact stem_ne_empty h.1

/-- The entry of a block is not the empty text. -/
theorem ofBlock_ne_empty (block : Block) : naming.ofBlock docType block ≠ "" := by
  cases block with
  | day date => simpa only [ofBlock, ofDate, String.append_assoc] using stem_append_ne_empty _
  | month year month => simpa only [ofBlock, String.append_assoc] using stem_append_ne_empty _
  | year year => simpa only [ofBlock, String.append_assoc] using stem_append_ne_empty _

end Naming

/-- A request names indices, and so does the text that it is sent to. -/
structure SearchRequest.NamesIndices (request : SearchRequest) : Prop where
  indices : request.indices ≠ []
  target : request.target ≠ ""

/-- Whatever is added to a request, its indices stay. -/
theorem SearchRequest.indices_build (indices : List String) (parts : List Part) :
    (build indices parts).indices = indices := by
  suffices hadd : ∀ request : SearchRequest, (parts.foldl add request).indices = request.indices from
    hadd (ofIndices indices)
  induction parts with
  | nil => exact fun request => rfl
  | cons part rest ih =>
      intro request
      rw [List.foldl_cons, ih]
      cases part <;> rfl

theorem SearchRequest.namesIndices_of_ne_empty
    {request : SearchRequest}
    (hnil : request.indices ≠ [])
    (hentries : ∀ index ∈ request.indices, index ≠ "") :
    request.NamesIndices := by
  refine ⟨hnil, fun htarget => ?_⟩
  cases hindices : request.indices with
  | nil => exact hnil hindices
  | cons index rest =>
      have hlist := congrArg String.toList htarget
      rw [target, String.toList_intercalate, hindices] at hlist
      have hindex : index.toList = [] := by
        cases rest with
        | nil => simpa [List.intercalate] using hlist
        | cons other rest => simp [List.intercalate] at hlist
      exact hentries index (hindices ▸ List.mem_cons_self) (String.toList_eq_nil_iff.mp hindex)

/-- Names are looked for some time back, in every configuration that was read. -/
theorem StoreConfig.namesLookback_pos
    {data : Json} {config : StoreConfig}
    (h : read data = .ok config) :
    0 < config.namesLookback := by
  cases data with
  | obj members =>
      simp only [read, Document.record, ofMembers, Checked.seq_eq_ok_iff, Checked.map_eq_ok_iff] at h
      obtain ⟨_, maxHits, ⟨_, lookback, ⟨_, strict, ⟨_, separator, ⟨index, -, rfl⟩, -, rfl⟩, -, rfl⟩,
        hlookback, rfl⟩, -, rfl⟩ := h
      rcases Document.optional_eq_ok hlookback with rfl | ⟨_, value, -, hvalue⟩
      · show (0 : Int) < 86400000
        decide
      · exact Document.integerAbove_eq_ok hvalue
  | _ => cases h

/-- A search that a call can come to send: its own, or one of a search in two phases. -/
inductive Plan.Asks : Plan → Search → Prop
  | own (asked : Search) : Asks (.search asked) asked
  | listing (search : TraceSearch) : Asks (.traceSearch search) search.listing
  | fetch (search : TraceSearch) (ids : List String) : Asks (.traceSearch search) (search.fetch ids)

namespace SpanStore

variable {store : SpanStore} {docType : String} {indices : List String} {lookup : Lookup}

/-- There are no partitions just when a window ends on a day before the one on which it begins. -/
theorem partitions_eq_nil_iff
    {begin last : Int}
    (h : store.partitions docType (.whole begin) (.whole last) = .ok indices) :
    indices = [] ↔ last / 86400000 < begin / 86400000 := by
  obtain ⟨first, final, blocks, hfirst, hfinal, hblocks, rfl⟩ :=
    Naming.ofInstants_eq_ok (mapError_eq_ok_iff.mp h)
  obtain ⟨rfl, -, -⟩ := Calendar.dayOfMillis_eq_ok_iff.mp hfirst
  obtain ⟨rfl, -, -⟩ := Calendar.dayOfMillis_eq_ok_iff.mp hfinal
  rw [List.map_eq_nil_iff]
  exact Partition.blocksFrom_eq_nil_iff hblocks

theorem ne_empty_of_mem_partitions
    {begin last : Millis}
    (h : store.partitions docType begin last = .ok indices) :
    ∀ index ∈ indices, index ≠ "" := by
  obtain ⟨first, final, blocks, -, -, -, rfl⟩ :=
    Naming.ofInstants_eq_ok (mapError_eq_ok_iff.mp h)
  intro index hmem
  obtain ⟨block, -, rfl⟩ := List.mem_map.mp hmem
  exact Naming.ofBlock_ne_empty block

/-- A request of some partitions names indices. -/
theorem namesIndices_of_partitions
    {begin last : Millis} {request : SearchRequest}
    (h : store.partitions docType begin last = .ok indices)
    (hnil : indices ≠ [])
    (hrequest : request.indices = indices) :
    request.NamesIndices :=
  SearchRequest.namesIndices_of_ne_empty (hrequest ▸ hnil)
    fun index hmem => ne_empty_of_mem_partitions h index (hrequest ▸ hmem)

/-- A request of the pattern of all span partitions names an index. -/
theorem namesIndices_of_allSpans
    {request : SearchRequest}
    (hrequest : request.indices = store.allSpans) :
    request.NamesIndices := by
  refine SearchRequest.namesIndices_of_ne_empty (hrequest ▸ List.cons_ne_nil _ _) ?_
  intro index hmem
  rw [hrequest, allSpans, List.mem_singleton] at hmem
  exact hmem ▸ Naming.stem_append_ne_empty "*"

/-! ### The plan of each lookup -/

/-- The search in two phases for the traces that satisfy criteria, in some partitions. -/
def traceSearch (store : SpanStore) (criteria : Criteria) (indices : List String) : TraceSearch where
  criteria := criteria
  aggregation := .build indices
    [.filters (criteria.clauses (windowStart criteria.endTs criteria.lookback) criteria.endTs),
      .aggregation (traceIdAggregation criteria.limit)]
  spanIndices := store.allSpans
  strict := store.strictTraceId
  maxHits := store.maxHits

/-- The search for names in the documents of a window, in some partitions. -/
def namesSearch
    (store : SpanStore)
    (begin : Millis) (now : Int)
    (clauses : List Clause)
    (fields : List String)
    (indices : List String) :
    Search where
  request := .build indices
    (.filters (.range Field.timestampMillis begin.toJson (some (.int now)) :: clauses) ::
      fields.map fun field => .aggregation (.terms field maxBuckets))
  reading := .sortedKeys
  maxHits := store.maxHits

/-- The plan of a lookup for the partitions of a window: the empty list if there are none, else a
search of them. -/
inductive Plans (indices : List String) (search : Plan) (plan : Plan) : Prop
  | nothing (hnil : indices = []) (hplan : plan = .emptyList)
  | search (hcons : indices ≠ []) (hplan : plan = search)

/-- The plan is the empty list just when there are no partitions. -/
theorem Plans.eq_emptyList_iff
    {search plan : Plan}
    (h : Plans indices search plan)
    (hsearch : search ≠ .emptyList) :
    plan = .emptyList ↔ indices = [] := by
  cases h with
  | nothing hnil hplan => simp [hnil, hplan]
  | search hcons hplan => simp [hcons, hplan, hsearch]

theorem plans_of_eq_ok
    {search : Plan} {log : List String}
    (h : (if indices.isEmpty then pure (.nothing log) else pure ⟨search, []⟩ :
      Except LookupError Lookup) = .ok lookup) :
    Plans indices search lookup.plan := by
  split at h
  · rename_i hempty
    cases h
    exact .nothing (List.isEmpty_iff.mp hempty) rfl
  · rename_i hcons
    cases h
    exact .search (fun hnil => hcons (List.isEmpty_iff.mpr hnil)) rfl

theorem traces_eq_ok
    {criteria : Criteria}
    (h : store.traces criteria = .ok lookup) :
    ∃ indices, store.partitions DocType.span
        (.whole (windowStart criteria.endTs criteria.lookback)) (.whole criteria.endTs) =
        .ok indices ∧
      Plans indices (.traceSearch (store.traceSearch criteria indices)) lookup.plan := by
  simp only [traces, bind_eq_ok_iff] at h
  obtain ⟨indices, hindices, hlookup⟩ := h
  exact ⟨indices, hindices, plans_of_eq_ok hlookup⟩

theorem names_eq_ok
    {now : Int} {clauses : List Clause} {fields : List String}
    (h : store.names now clauses fields = .ok lookup) :
    ∃ begin indices, store.namesBegin now = .ok begin ∧
      store.partitions DocType.span begin (.whole now) = .ok indices ∧
      Plans indices (.search (store.namesSearch begin now clauses fields indices)) lookup.plan := by
  simp only [names, bind_eq_ok_iff] at h
  obtain ⟨begin, hbegin, indices, hindices, hlookup⟩ := h
  exact ⟨begin, indices, hbegin, hindices, plans_of_eq_ok hlookup⟩

/-- Names are looked for in the partitions of the window, if there are any. -/
theorem names_of_partitions
    {now : Int} {begin : Millis}
    (hbegin : store.namesBegin now = .ok begin)
    (hindices : store.partitions DocType.span begin (.whole now) = .ok indices)
    (hcons : indices ≠ [])
    (clauses : List Clause) (fields : List String) :
    store.names now clauses fields =
      .ok ⟨.search (store.namesSearch begin now clauses fields indices), []⟩ := by
  have hempty : indices.isEmpty = false := List.isEmpty_eq_false_iff.mpr hcons
  rw [names, hbegin, ok_bind, hindices, ok_bind, hempty]
  rfl

theorem dependencies_eq_ok
    {endTs lookback : Int}
    (h : store.dependencies endTs lookback = .ok lookup) :
    ∃ indices, store.partitions DocType.dependency
        (.whole (windowStart endTs lookback)) (.whole endTs) = .ok indices ∧
      Plans indices (store.search (.ofIndices indices) .dependencyLinks) lookup.plan := by
  simp only [dependencies, bind_eq_ok_iff] at h
  obtain ⟨indices, hindices, hlookup⟩ := h
  exact ⟨indices, hindices, plans_of_eq_ok hlookup⟩

/-- The names of spans are those in the documents of a service, if one is given. -/
theorem spanNames_eq_ok
    {now : Int} {service : Option String}
    (h : store.spanNames now service = .ok lookup) :
    (service = none ∨ service = some "") ∧ lookup.plan = .emptyList ∨
      ∃ name, service = some name ∧ name ≠ "" ∧
        store.names now [.equals Field.localService (Text.lower name)] [Field.spanName] =
          .ok lookup := by
  rw [spanNames] at h
  cases hservice : service.filter (· ≠ "") with
  | none =>
      rw [hservice] at h
      cases h
      refine Or.inl ⟨?_, rfl⟩
      cases service with
      | none => exact Or.inl rfl
      | some name => simpa using hservice
  | some name =>
      rw [hservice] at h
      obtain ⟨rfl, hname⟩ := Option.filter_eq_some_iff.mp hservice
      exact Or.inr ⟨name, rfl, of_decide_eq_true hname, h⟩

/-! ### The searches of a lookup -/

/-- The plans that the lookups of a store give. -/
inductive Gives (store : SpanStore) : Plan → Prop
  | traces {criteria : Criteria} {lookup : Lookup} (h : store.traces criteria = .ok lookup) :
      Gives store lookup.plan
  | traceById (id : TraceId) : Gives store (store.traceById id).plan
  | serviceNames {now : Int} {lookup : Lookup} (h : store.serviceNames now = .ok lookup) :
      Gives store lookup.plan
  | spanNames {now : Int} {service : Option String} {lookup : Lookup}
      (h : store.spanNames now service = .ok lookup) :
      Gives store lookup.plan
  | dependencies {endTs lookback : Int} {lookup : Lookup}
      (h : store.dependencies endTs lookback = .ok lookup) :
      Gives store lookup.plan

/-- The plan of a lookup for some partitions asks of no more than the search for them. -/
theorem Plans.asks
    {search plan : Plan} {asked : Search}
    (h : Plans indices search plan)
    (hasks : plan.Asks asked) :
    indices ≠ [] ∧ search.Asks asked := by
  cases h with
  | nothing hnil hplan =>
      rw [hplan] at hasks
      cases hasks
  | search hcons hplan => exact ⟨hcons, hplan ▸ hasks⟩

theorem namesIndices_of_names
    {now : Int} {clauses : List Clause} {fields : List String} {asked : Search}
    (h : store.names now clauses fields = .ok lookup)
    (hasks : lookup.plan.Asks asked) :
    asked.request.NamesIndices := by
  obtain ⟨begin, indices, -, hindices, hplans⟩ := names_eq_ok h
  obtain ⟨hcons, hasks⟩ := hplans.asks hasks
  cases hasks
  exact namesIndices_of_partitions hindices hcons (SearchRequest.indices_build _ _)

/-- Every search of a lookup names indices. -/
theorem namesIndices_of_gives
    {plan : Plan} {asked : Search}
    (h : store.Gives plan)
    (hasks : plan.Asks asked) :
    asked.request.NamesIndices := by
  cases h with
  | traces h =>
      obtain ⟨indices, hindices, hplans⟩ := traces_eq_ok h
      obtain ⟨hcons, hasks⟩ := hplans.asks hasks
      cases hasks with
      | listing => exact namesIndices_of_partitions hindices hcons (SearchRequest.indices_build _ _)
      | fetch search ids => exact namesIndices_of_allSpans (SearchRequest.indices_build _ _)
  | traceById id =>
      cases hasks
      exact namesIndices_of_allSpans (SearchRequest.indices_build _ _)
  | serviceNames h => exact namesIndices_of_names h hasks
  | spanNames h =>
      rcases spanNames_eq_ok h with ⟨-, hempty⟩ | ⟨name, -, -, hnames⟩
      · rw [hempty] at hasks
        cases hasks
      · exact namesIndices_of_names hnames hasks
  | dependencies h =>
      obtain ⟨indices, hindices, hplans⟩ := dependencies_eq_ok h
      obtain ⟨hcons, hasks⟩ := hplans.asks hasks
      cases hasks
      exact namesIndices_of_partitions hindices hcons rfl

/-! ### When the plan is the empty list -/

/-- Traces are not looked for just when the window ends before the first span was stored. -/
theorem traces_eq_emptyList_iff
    {criteria : Criteria}
    (hlookback : 0 < criteria.lookback)
    (h : store.traces criteria = .ok lookup) :
    lookup.plan = .emptyList ↔ criteria.endTs < earliestMillis := by
  obtain ⟨indices, hindices, hplans⟩ := traces_eq_ok h
  rw [hplans.eq_emptyList_iff (by simp [Plan.emptyList]), partitions_eq_nil_iff hindices]
  -- the first span was stored at the start of a day
  simp only [windowStart, earliestMillis]
  omega

/-- Dependency links are not looked for just when the window ends on a day before the one on which
it begins. -/
theorem dependencies_eq_emptyList_iff
    {endTs lookback : Int}
    (h : store.dependencies endTs lookback = .ok lookup) :
    lookup.plan = .emptyList ↔ endTs / 86400000 < windowStart endTs lookback / 86400000 := by
  obtain ⟨indices, hindices, hplans⟩ := dependencies_eq_ok h
  rw [hplans.eq_emptyList_iff (by simp [search, Plan.emptyList]), partitions_eq_nil_iff hindices]

/-- Names are looked for in every window that goes back from now. -/
theorem names_ne_emptyList
    {lookback now : Int} {clauses : List Clause} {fields : List String}
    (hlookback : store.namesLookback = some (.whole lookback))
    (hpos : 0 < lookback)
    (h : store.names now clauses fields = .ok lookup) :
    lookup.plan ≠ .emptyList := by
  obtain ⟨begin, indices, hbegin, hindices, hplans⟩ := names_eq_ok h
  simp only [namesBegin, hlookback, Millis.before_whole] at hbegin
  cases hbegin
  rw [ne_eq, hplans.eq_emptyList_iff (by simp [Plan.emptyList]), partitions_eq_nil_iff hindices]
  omega

variable {data : Json} {config : StoreConfig} {now : Int}

theorem serviceNames_ne_emptyList
    (valid : StoreConfig.read data = .ok config)
    (h : config.store.serviceNames now = .ok lookup) :
    lookup.plan ≠ .emptyList :=
  names_ne_emptyList rfl (StoreConfig.namesLookback_pos valid) h

/-- The names of the spans of a service are not looked for just when no service is given. -/
theorem spanNames_eq_emptyList_iff
    {service : Option String}
    (valid : StoreConfig.read data = .ok config)
    (h : config.store.spanNames now service = .ok lookup) :
    lookup.plan = .emptyList ↔ service = none ∨ service = some "" := by
  rcases spanNames_eq_ok h with ⟨hservice, hempty⟩ | ⟨name, rfl, hname, hnames⟩
  · exact iff_of_true hempty hservice
  · have hne := names_ne_emptyList rfl (StoreConfig.namesLookback_pos valid) hnames
    exact iff_of_false hne (by simpa using hname)

end SpanStore
end TraceArchive
