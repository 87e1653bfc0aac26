import Mathlib.Data.List.Forall2
import Mathlib.Data.String.Basic
import TraceArchive.Call.Value
import TraceArchive.Proofs.Assembly
import TraceArchive.Proofs.Containment

/-!
# What is read of a response

Reading a response is all or nothing.  A response of the right shape is read completely, one value
for each of its parts, and any other is refused as a whole.

* `IsFirstSeen`: a list without its repeats.
* `ListsHits`, `IsDocument`, `ListsKeys`: the shape of responses.
* `documents_eq_ok_iff`, `traceIds_eq_ok_iff`, `sortedKeys_eq_ok_iff`: just what has that shape is
  read.
* `read_allOrNothing`: all of this together.
-/

set_option autoImplicit false

namespace TraceArchive

/-- What is paired with an item of a list. -/
theorem exists_of_forall₂_of_mem
    {α β : Type} {R : α → β → Prop} {list : List α} {values : List β}
    (h : List.Forall₂ R list values)
    {a : α}
    (hmem : a ∈ list) :
    ∃ b ∈ values, R a b := by
  induction h with
  | nil => cases hmem
  | cons hfirst _ ih =>
      rcases List.mem_cons.mp hmem with rfl | hmem
      · exact ⟨_, List.mem_cons_self, hfirst⟩
      · obtain ⟨b, hb, hab⟩ := ih hmem
        exact ⟨b, List.mem_cons_of_mem _ hb, hab⟩

/-! ### Lists without repeats -/

section Distinct

variable {α : Type} [DecidableEq α]

/-- The members of a list, each once, in the order in which they first stand in it. -/
structure IsFirstSeen (list distinct : List α) : Prop where
  mem_iff : ∀ a, a ∈ distinct ↔ a ∈ list
  inOrder : distinct.Pairwise fun a b => list.idxOf a < list.idxOf b

theorem IsFirstSeen.nodup {list distinct : List α} (h : IsFirstSeen list distinct) :
    distinct.Nodup :=
  h.inOrder.imp fun hlt heq => Nat.ne_of_lt hlt (congrArg list.idxOf heq)

theorem isFirstSeen_eraseDups (list : List α) : IsFirstSeen list list.eraseDups :=
  ⟨fun _ => List.mem_eraseDups, pairwise_idxOf_eraseDups list⟩

/-- A list has no other members without repeats than these. -/
theorem isFirstSeen_iff {list distinct : List α} :
    IsFirstSeen list distinct ↔ list.eraseDups = distinct := by
  refine ⟨fun h => ?_, fun h => h ▸ isFirstSeen_eraseDups list⟩
  refine List.Perm.eq_of_pairwise (fun a b _ _ hab hba => absurd hab (Nat.lt_asymm hba))
    (pairwise_idxOf_eraseDups list) h.inOrder ?_
  refine (List.perm_ext_iff_of_nodup (nodup_eraseDups list) h.nodup).mpr fun a => ?_
  rw [List.mem_eraseDups, h.mem_iff]

end Distinct

/-- A list of texts in the order of their code points is determined by its members. -/
theorem eq_of_pairwise_lt
    {first second : List String}
    (hfirst : first.Pairwise (· < ·))
    (hsecond : second.Pairwise (· < ·))
    (hmem : ∀ text, text ∈ first ↔ text ∈ second) :
    first = second := by
  have hnodup : ∀ {list : List String}, list.Pairwise (· < ·) → list.Nodup :=
    fun h => h.imp fun hlt => ne_of_lt hlt
  exact List.Perm.eq_of_pairwise (fun a b _ _ hab hba => absurd hab (lt_asymm hba))
    hfirst hsecond ((List.perm_ext_iff_of_nodup (hnodup hfirst) (hnodup hsecond)).mpr hmem)

/-! ### Shapes -/

namespace Json

/-- A value that has items, each of which may be an object: an array, or else a text or an object
without anything in it. -/
inductive Lists : Json → List Json → Prop
  | arr (items : List Json) : Lists (.arr items) items
  | str : Lists (.str "") []
  | obj : Lists (.obj []) []

theorem Lists.unique
    {value : Json} {items items' : List Json}
    (h : value.Lists items)
    (h' : value.Lists items') :
    items = items' := by
  cases h <;> cases h' <;> rfl

theorem demand_eq_ok_iff {name : String} {whole value : Json} :
    whole.demand name = .ok value ↔ whole.member? name = some value := by
  cases whole with
  | obj members =>
      rw [demand, member?]
      cases Entries.get? name members <;> simp
  | _ => simp [demand, member?]

theorem elements_eq_ok_iff {value : Json} {items : List Json} :
    value.elements = .ok items ↔ value.elements? = some items := by
  rw [elements]
  cases value.elements? <;> simp

/-- When a text is no item that can be read, only items of an array are. -/
theorem exists_elements_iff
    {α : Type} {Reads : Json → α → Prop}
    (htext : ∀ text a, ¬ Reads (.str text) a)
    {value : Json} {results : List α} :
    (∃ items, value.elements? = some items ∧ List.Forall₂ Reads items results) ↔
      ∃ items, value.Lists items ∧ List.Forall₂ Reads items results := by
  constructor
  · rintro ⟨items, hitems, hread⟩
    cases value with
    | arr list =>
        cases hitems
        exact ⟨_, .arr _, hread⟩
    | str text =>
        cases hitems
        cases hchars : text.toList with
        | nil =>
            rw [hchars] at hread
            rw [String.toList_eq_nil_iff.mp hchars]
            exact ⟨[], .str, hread⟩
        | cons c rest =>
            rw [hchars] at hread
            cases hread with
            | cons hfirst _ => exact absurd hfirst (htext _ _)
    | obj members =>
        cases hitems
        cases members with
        | nil => exact ⟨[], .obj, hread⟩
        | cons member rest =>
            cases hread with
            | cons hfirst _ => exact absurd hfirst (htext _ _)
    | null => cases hitems
    | bool b => cases hitems
    | int n => cases hitems
    | float d => cases hitems
  · rintro ⟨items, hlists, hread⟩
    refine ⟨items, ?_, hread⟩
    cases hlists <;> rfl

end Json

namespace Response

/-- The hits of a response. -/
def ListsHits (body : Json) (hits : List Json) : Prop :=
  ∃ outer inner, body.member? "hits" = some outer ∧ outer.member? "hits" = some inner ∧
    inner.Lists hits

/-- A hit holds a document that is read as a value. -/
def IsDocument {α : Type} (read : Json → Checked α) (hit : Json) (value : α) : Prop :=
  ∃ source, hit.member? "_source" = some source ∧ read source = .ok value

/-- A bucket has a key, which stands for a text. -/
def HasKey (bucket : Json) (key : String) : Prop :=
  ∃ value, bucket.member? "key" = some value ∧ value.plain = key

/-- The buckets of an aggregation. -/
def ListsBuckets (aggregation : Json) (buckets : List Json) : Prop :=
  ∃ inner, aggregation.member? "buckets" = some inner ∧ inner.Lists buckets

/-- The aggregations of a response, if it has any; a response that is no object is none at all. -/
inductive ListsAggregations : Json → List Json → Prop
  | missing {members : Members} (h : Entries.get? "aggregations" members = none) :
      ListsAggregations (.obj members) []
  | null {members : Members} (h : Entries.get? "aggregations" members = some .null) :
      ListsAggregations (.obj members) []
  | obj {members aggregations : Members}
      (h : Entries.get? "aggregations" members = some (.obj aggregations)) :
      ListsAggregations (.obj members) (aggregations.map Prod.snd)

/-- The keys of the buckets of all aggregations, in the order of the response. -/
def ListsKeys (body : Json) (keys : List String) : Prop :=
  ∃ aggregations keysOfEach, ListsAggregations body aggregations ∧
    List.Forall₂ (fun aggregation keys => ∃ buckets, ListsBuckets aggregation buckets ∧
      List.Forall₂ HasKey buckets keys) aggregations keysOfEach ∧
    keysOfEach.flatten = keys

/-! ### Documents -/

theorem hitList_eq_ok_iff {body : Json} {hits : List Json} :
    hitList body = .ok hits ↔ ∃ outer inner, body.member? "hits" = some outer ∧
      outer.member? "hits" = some inner ∧ inner.elements? = some hits := by
  simp only [hitList, bind_eq_ok_iff, Json.demand_eq_ok_iff, Json.elements_eq_ok_iff]
  constructor
  · rintro ⟨outer, houter, inner, hinner, hhits⟩
    exact ⟨outer, inner, houter, hinner, hhits⟩
  · rintro ⟨outer, inner, houter, hinner, hhits⟩
    exact ⟨outer, houter, inner, hinner, hhits⟩

section Documents

variable {α : Type} {record : String} {read : Json → Checked α}

theorem readHit_eq_ok_iff {hit : Json} {value : α} :
    readHit record read hit = .ok value ↔ IsDocument read hit value := by
  simp only [readHit, bind_eq_ok_iff, mapError_eq_ok_iff, Json.demand_eq_ok_iff, IsDocument]
  refine exists_congr fun source => and_congr_right fun _ => ?_
  cases read source <;> simp [pure, Except.pure]

/-- The documents are read just when each hit holds one, as just these values. -/
theorem documents_eq_ok_iff {body : Json} {values : List α} :
    documents record read body = .ok values ↔
      ∃ hits, ListsHits body hits ∧ List.Forall₂ (IsDocument read) hits values := by
  have htext : ∀ text value, ¬ IsDocument read (.str text) value :=
    fun _ _ ⟨_, hsource, _⟩ => by cases hsource
  have hshape : documents record read body = .ok values ↔
      ∃ hits, hitList body = .ok hits ∧ hits.mapM (readHit record read) = .ok values := by
    cases body with
    | obj members => simp only [documents, bind_eq_ok_iff, mapError_eq_ok_iff]
    | _ => simp [documents, hitList, Json.demand, bind, Except.bind]
  rw [hshape]
  simp only [hitList_eq_ok_iff, mapM_eq_ok_iff, readHit_eq_ok_iff]
  constructor
  · rintro ⟨hits, ⟨outer, inner, houter, hinner, hhits⟩, hread⟩
    obtain ⟨hits, hlists, hread⟩ := (Json.exists_elements_iff htext).mp ⟨hits, hhits, hread⟩
    exact ⟨hits, ⟨outer, inner, houter, hinner, hlists⟩, hread⟩
  · rintro ⟨hits, ⟨outer, inner, houter, hinner, hlists⟩, hread⟩
    obtain ⟨hits, hhits, hread⟩ := (Json.exists_elements_iff htext).mpr ⟨hits, hlists, hread⟩
    exact ⟨hits, ⟨outer, inner, houter, hinner, hhits⟩, hread⟩

end Documents

/-! ### Keys -/

theorem aggregationKeys_eq_ok_iff {aggregation : Json} {keys : List String} :
    aggregationKeys aggregation = .ok keys ↔
      ∃ buckets, ListsBuckets aggregation buckets ∧ List.Forall₂ HasKey buckets keys := by
  have htext : ∀ text key, ¬ HasKey (.str text) key := fun _ _ ⟨_, hvalue, _⟩ => by cases hvalue
  simp only [aggregationKeys, bind_eq_ok_iff, Json.demand_eq_ok_iff, Json.elements_eq_ok_iff,
    mapM_eq_ok_iff, pure, Except.pure, Except.ok.injEq]
  constructor
  · rintro ⟨inner, hinner, buckets, hbuckets, hkeys⟩
    obtain ⟨buckets, hlists, hkeys⟩ :=
      (Json.exists_elements_iff htext).mp ⟨buckets, hbuckets, hkeys⟩
    exact ⟨buckets, ⟨inner, hinner, hlists⟩, hkeys⟩
  · rintro ⟨buckets, ⟨inner, hinner, hlists⟩, hkeys⟩
    obtain ⟨buckets, hbuckets, hkeys⟩ :=
      (Json.exists_elements_iff htext).mpr ⟨buckets, hlists, hkeys⟩
    exact ⟨inner, hinner, buckets, hbuckets, hkeys⟩

theorem keysOf_eq_ok_iff {value : Json} {keys : List String} :
    keysOf value = .ok keys ↔ ∃ aggregations keysOfEach, value = .obj aggregations ∧
      List.Forall₂ (fun aggregation keys => aggregationKeys aggregation = .ok keys)
        (aggregations.map Prod.snd) keysOfEach ∧ keysOfEach.flatten = keys := by
  cases value with
  | obj members =>
      simp [keysOf, map_eq_ok_iff, mapM_eq_ok_iff]
  | _ => simp [keysOf]

/-- The keys of the buckets are read just when every bucket has one. -/
theorem bucketKeys_eq_ok_iff {body : Json} {keys : List String} :
    bucketKeys body = .ok keys ↔ ListsKeys body keys := by
  simp only [ListsKeys, ← aggregationKeys_eq_ok_iff]
  cases body with
  | obj members =>
      rw [bucketKeys]
      split
      · rename_i hnone
        constructor
        · intro h
          cases h
          exact ⟨[], [], .missing hnone, .nil, rfl⟩
        · rintro ⟨_, _, haggregations, hkeys, rfl⟩
          cases haggregations with
          | missing => cases hkeys; rfl
          | null hnull => rw [hnone] at hnull; cases hnull
          | obj hobj => rw [hnone] at hobj; cases hobj
      · rename_i hnull
        constructor
        · intro h
          cases h
          exact ⟨[], [], .null hnull, .nil, rfl⟩
        · rintro ⟨_, _, haggregations, hkeys, rfl⟩
          cases haggregations with
          | missing => cases hkeys; rfl
          | null => cases hkeys; rfl
          | obj hobj => rw [hnull] at hobj; cases hobj
      · rename_i value hnull hvalue
        rw [mapError_eq_ok_iff, keysOf_eq_ok_iff]
        constructor
        · rintro ⟨aggregations, keysOfEach, rfl, hkeys, hflat⟩
          exact ⟨_, keysOfEach, .obj hvalue, hkeys, hflat⟩
        · rintro ⟨_, keysOfEach, haggregations, hkeys, hflat⟩
          cases haggregations with
          | missing hnone => rw [hvalue] at hnone; cases hnone
          | null h => rw [hvalue] at h; exact absurd (Option.some.inj h) hnull
          | obj hobj =>
              rw [hvalue] at hobj
              exact ⟨_, keysOfEach, Option.some.inj hobj, hkeys, hflat⟩
  | _ =>
      constructor
      · intro h
        cases h
      · rintro ⟨_, _, haggregations, _⟩
        cases haggregations

/-- The trace IDs are read just when every bucket has a key, and every key is a trace ID. -/
theorem traceIds_eq_ok_iff {body : Json} {ids : List String} :
    traceIds body = .ok ids ↔
      ∃ keys, ListsKeys body keys ∧ IsFirstSeen keys ids ∧
        ∀ key ∈ keys, (TraceId.parse? key).isSome := by
  simp only [traceIds, bind_eq_ok_iff, bucketKeys_eq_ok_iff]
  refine exists_congr fun keys => and_congr_right fun _ => ?_
  split
  · rename_i key hfind
    constructor
    · intro h
      cases h
    · intro h
      have hmem := List.mem_eraseDups.mp (List.mem_of_find?_eq_some hfind)
      have hnone := List.find?_some hfind
      rw [Option.isNone_iff_eq_none] at hnone
      have hsome := h.2 key hmem
      rw [hnone] at hsome
      cases hsome
  · rename_i hfind
    have hvalid : ∀ key ∈ keys, (TraceId.parse? key).isSome := by
      intro key hkey
      have hnone := List.find?_eq_none.mp hfind key (List.mem_eraseDups.mpr hkey)
      simpa [Option.isSome_iff_ne_none] using hnone
    rw [and_iff_left hvalid, isFirstSeen_iff]
    simp [pure, Except.pure]

theorem pairwise_lt_sorted (keys : List String) :
    (keys.eraseDups.mergeSort fun a b => !decide (b < a)).Pairwise (· < ·) := by
  have hle : ∀ a b : String, (!decide (b < a)) = true ↔ a ≤ b := by
    intro a b
    rw [Bool.not_eq_true', decide_eq_false_iff_not, not_lt]
  have hsorted : (keys.eraseDups.mergeSort fun a b => !decide (b < a)).Pairwise
      fun a b => (!decide (b < a)) = true := by
    refine List.pairwise_mergeSort ?_ ?_ keys.eraseDups
    · exact fun a b c hab hbc => (hle a c).mpr (le_trans ((hle a b).mp hab) ((hle b c).mp hbc))
    · intro a b
      rw [Bool.or_eq_true, hle, hle]
      exact le_total a b
  have hnodup := (List.mergeSort_perm keys.eraseDups fun a b => !decide (b < a)).nodup_iff.mpr
    (nodup_eraseDups keys)
  exact (hsorted.and hnodup).imp fun ⟨hab, hne⟩ => lt_of_le_of_ne ((hle _ _).mp hab) hne

/-- The sorted keys are read just when every bucket has a key, and are those, each once. -/
theorem sortedKeys_eq_ok_iff {body : Json} {names : List String} :
    sortedKeys body = .ok names ↔
      ∃ keys, ListsKeys body keys ∧ names.Pairwise (· < ·) ∧ ∀ name, name ∈ names ↔ name ∈ keys := by
  simp only [sortedKeys, bind_eq_ok_iff, bucketKeys_eq_ok_iff, pure, Except.pure, Except.ok.injEq]
  refine exists_congr fun keys => and_congr_right fun _ => ?_
  have hmem : ∀ name, name ∈ keys.eraseDups.mergeSort (fun a b => !decide (b < a)) ↔ name ∈ keys := by
    simp
  constructor
  · rintro rfl
    exact ⟨pairwise_lt_sorted keys, hmem⟩
  · rintro ⟨hsorted, hnames⟩
    exact eq_of_pairwise_lt (pairwise_lt_sorted keys) hsorted fun name =>
      (hmem name).trans (hnames name).symm

/-! ### All or nothing -/

theorem ListsHits.unique
    {body : Json} {hits hits' : List Json}
    (h : ListsHits body hits)
    (h' : ListsHits body hits') :
    hits = hits' := by
  obtain ⟨outer, inner, houter, hinner, hlists⟩ := h
  obtain ⟨outer', inner', houter', hinner', hlists'⟩ := h'
  cases houter.symm.trans houter'
  cases hinner.symm.trans hinner'
  exact hlists.unique hlists'

theorem ListsAggregations.unique
    {body : Json} {aggregations aggregations' : List Json}
    (h : ListsAggregations body aggregations)
    (h' : ListsAggregations body aggregations') :
    aggregations = aggregations' := by
  cases h with
  | missing hfirst =>
      cases h' with
      | obj hsecond => cases hfirst.symm.trans hsecond
      | _ => rfl
  | null hfirst =>
      cases h' with
      | obj hsecond => cases hfirst.symm.trans hsecond
      | _ => rfl
  | obj hfirst =>
      cases h' with
      | missing hsecond => cases hfirst.symm.trans hsecond
      | null hsecond => cases hfirst.symm.trans hsecond
      | obj hsecond =>
          cases hfirst.symm.trans hsecond
          rfl

/-- One hit without a document that can be read is enough for all documents to be refused. -/
theorem refused_of_hit
    {α : Type} {record : String} {read : Json → Checked α}
    {body hit : Json} {hits : List Json}
    (hhits : ListsHits body hits)
    (hmem : hit ∈ hits)
    (hhit : ∀ value, ¬ IsDocument read hit value) :
    ∃ error, documents record read body = .error error := by
  refine exists_error_iff.mpr fun values hvalues => ?_
  obtain ⟨hits', hhits', hread⟩ := documents_eq_ok_iff.mp hvalues
  cases hhits.unique hhits'
  obtain ⟨value, _, hvalue⟩ := exists_of_forall₂_of_mem hread hmem
  exact hhit value hvalue

/-- An aggregation that is not read: it has no buckets, or one of them has no key. -/
def IsMalformed (aggregation : Json) : Prop :=
  ∀ buckets, ListsBuckets aggregation buckets → ∃ bucket ∈ buckets, ∀ key, ¬ HasKey bucket key

/-- One aggregation that is not read is enough for a response to list no keys. -/
theorem IsMalformed.not_listsKeys
    {body aggregation : Json} {aggregations : List Json}
    (h : IsMalformed aggregation)
    (haggregations : ListsAggregations body aggregations)
    (hmem : aggregation ∈ aggregations)
    (keys : List String) :
    ¬ ListsKeys body keys := by
  rintro ⟨aggregations', keysOfEach, haggregations', hkeys, -⟩
  cases haggregations.unique haggregations'
  obtain ⟨keys, _, buckets, hbuckets, hall⟩ := exists_of_forall₂_of_mem hkeys hmem
  obtain ⟨bucket, hbucket, hnone⟩ := h buckets hbuckets
  obtain ⟨key, _, hkey⟩ := exists_of_forall₂_of_mem hall hbucket
  exact hnone key hkey

/-- How responses are read.  Whatever is asked for, reading gives a list or refuses the response
(`listed`), and no other failure of an access to its parts comes out of it (`contained`).  It gives
the documents of all hits, one value for each, the keys of all buckets as trace IDs, or the same
keys sorted, just when the response has that shape (`spans`, `dependencyLinks`, `traceIds`,
`sortedKeys`); one hit, one aggregation or one trace ID that cannot be read is enough for the whole
response to be refused (`refusedHit`, `refusedAggregation`, `refusedId`). -/
structure AllOrNothing (body : Json) : Prop where
  listed : ∀ reading : Reading, (∃ items, reading.read body = .ok (.list items)) ∨
    ∃ error, reading.read body = .error error
  contained : ∀ reading : Reading,
    reading.readChecked body = (reading.read body).mapError AccessFault.refused
  spans : ∀ values, spans body = .ok values ↔
    ∃ hits, ListsHits body hits ∧ List.Forall₂ (IsDocument Span.read) hits values
  dependencyLinks : ∀ values, dependencyLinks body = .ok values ↔
    ∃ hits, ListsHits body hits ∧ List.Forall₂ (IsDocument DependencyLink.read) hits values
  traceIds : ∀ ids, traceIds body = .ok ids ↔
    ∃ keys, ListsKeys body keys ∧ IsFirstSeen keys ids ∧
      ∀ key ∈ keys, TraceId.isHexText key.toList = true
  sortedKeys : ∀ names, sortedKeys body = .ok names ↔
    ∃ keys, ListsKeys body keys ∧ names.Pairwise (· < ·) ∧ ∀ name, name ∈ names ↔ name ∈ keys
  refusedHit : ∀ hits, ListsHits body hits → ∀ hit ∈ hits,
    ((∀ span, ¬ IsDocument Span.read hit span) →
      ∃ error, Response.spans body = .error error) ∧
    ((∀ link, ¬ IsDocument DependencyLink.read hit link) →
      ∃ error, Response.dependencyLinks body = .error error)
  refusedAggregation : ∀ aggregations, ListsAggregations body aggregations →
    (∃ aggregation ∈ aggregations, IsMalformed aggregation) →
      (∃ error, Response.traceIds body = .error error) ∧
        ∃ error, Response.sortedKeys body = .error error
  refusedId : ∀ keys, ListsKeys body keys →
    (∃ key ∈ keys, TraceId.isHexText key.toList = false) →
      ∃ error, Response.traceIds body = .error error

/-- **Reading a response is all or nothing**, for every value that a response may be. -/
theorem read_allOrNothing (body : Json) : AllOrNothing body where
  listed reading := by
    cases reading with
    | traceIds =>
        cases h : traceIds body with
        | error error => exact Or.inr ⟨error, by rw [Reading.read, h]; rfl⟩
        | ok ids => exact Or.inl ⟨_, by rw [Reading.read, h]; rfl⟩
    | sortedKeys =>
        cases h : sortedKeys body with
        | error error => exact Or.inr ⟨error, by rw [Reading.read, h]; rfl⟩
        | ok names => exact Or.inl ⟨_, by rw [Reading.read, h]; rfl⟩
    | spans =>
        cases h : spans body with
        | error error => exact Or.inr ⟨error, by rw [Reading.read, h]; rfl⟩
        | ok values => exact Or.inl ⟨_, by rw [Reading.read, h]; rfl⟩
    | dependencyLinks =>
        cases h : dependencyLinks body with
        | error error => exact Or.inr ⟨error, by rw [Reading.read, h]; rfl⟩
        | ok values => exact Or.inl ⟨_, by rw [Reading.read, h]; rfl⟩
  contained reading := reading.readChecked_eq body
  spans _ := documents_eq_ok_iff
  dependencyLinks _ := documents_eq_ok_iff
  traceIds _ := by simpa only [TraceId.parse?_isSome_iff] using traceIds_eq_ok_iff
  sortedKeys _ := sortedKeys_eq_ok_iff
  refusedHit _ hhits _ hmem := ⟨refused_of_hit hhits hmem, refused_of_hit hhits hmem⟩
  refusedAggregation _ haggregations := by
    rintro ⟨aggregation, hmem, hmalformed⟩
    have hnone := hmalformed.not_listsKeys haggregations hmem
    refine ⟨exists_error_iff.mpr fun ids hids => ?_, exists_error_iff.mpr fun names hnames => ?_⟩
    · obtain ⟨keys, hkeys, _⟩ := traceIds_eq_ok_iff.mp hids
      exact hnone keys hkeys
    · obtain ⟨keys, hkeys, _⟩ := sortedKeys_eq_ok_iff.mp hnames
      exact hnone keys hkeys
  refusedId keys hkeys := by
    rintro ⟨key, hmem, hkey⟩
    refine exists_error_iff.mpr fun ids hids => ?_
    obtain ⟨keys', hkeys', _, hvalid⟩ := traceIds_eq_ok_iff.mp hids
    cases (bucketKeys_eq_ok_iff.mpr hkeys).symm.trans (bucketKeys_eq_ok_iff.mpr hkeys')
    rw [← Bool.not_eq_true] at hkey
    exact hkey (TraceId.parse?_isSome_iff.mp (hvalid key hmem))

end Response
end TraceArchive
