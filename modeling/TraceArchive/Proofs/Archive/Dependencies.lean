import TraceArchive.Proofs.Archive.PointLookup
import TraceArchive.Proofs.Lookups

/-!
# Dependency links are looked up day by day

A lookup of dependency links asks for every document of the partitions of a window: there is no
condition that would sort out what a wrong partition holds.  The entries of the window reach just
the partitions of its days, so the links of these days are found, and no others.

* `DailyDocument`: a dependency link or anything else, in the partition of its day.
* `filter_reached`: the entries of a window reach the links of its days.
* `settlesWith_links`: a search for all links of some partitions comes to those that it reaches.
* `SpanStore.exists_dependencies`: there is a lookup whenever the partitions can be made out.
* `dependencies_of_window`: the links of the days of a window, each once, in storage order.
-/

set_option autoImplicit false

namespace TraceArchive

/-- The document of a dependency link. -/
structure LinkDocument where
  body : Json
  link : DependencyLink
  reads : DependencyLink.read body = .ok link

/-- A document in the partition of a day: that of a dependency link, or any other among the spans. -/
inductive DailyDocument where
  | link (document : LinkDocument) (date : Date) (inCalendar : date.InCalendar)
  | other (body : Json) (date : Date)

namespace DailyDocument

/-- The partition of a document and the document as a value, as the backend has them. -/
def stored (naming : Naming) : DailyDocument → String × Json
  | link document date _ => (naming.ofDate DocType.dependency date, document.body)
  | other body date => (naming.ofDate DocType.span date, body)

/-- The document of a dependency link of one of the days of a range, if it is one. -/
def linkWithin? (first final : Int) : DailyDocument → Option LinkDocument
  | link document date _ =>
      if first ≤ date.toDay ∧ date.toDay ≤ final then some document else none
  | other _ _ => none

/-- The documents of the dependency links of the days of a range, in storage order. -/
def linksWithin (first final : Int) (documents : List DailyDocument) : List LinkDocument :=
  documents.filterMap (linkWithin? first final)

theorem stored_of_linkWithin?
    {naming : Naming} {first final : Int} {document : DailyDocument} {kept : LinkDocument}
    (h : document.linkWithin? first final = some kept) :
    (document.stored naming).2 = kept.body := by
  cases document with
  | link document date inCalendar =>
      obtain ⟨-, hkept⟩ := Option.ite_none_right_eq_some.mp h
      exact congrArg LinkDocument.body (Option.some.inj hkept)
  | other body date => cases h

theorem linksWithin_of_lt
    {first final : Int}
    (h : final < first)
    (documents : List DailyDocument) :
    linksWithin first final documents = [] := by
  refine List.filterMap_eq_nil_iff.mpr fun document _ => ?_
  cases document with
  | link document date inCalendar => exact if_neg (by omega)
  | other body date => rfl

end DailyDocument

/-- There is a lookup of dependency links whenever the partitions can be made out, be they none. -/
theorem SpanStore.exists_dependencies
    {store : SpanStore} {endTs lookback : Int} {indices : List String}
    (h : store.partitions DocType.dependency (.whole (windowStart endTs lookback)) (.whole endTs) =
      .ok indices) :
    ∃ lookup, store.dependencies endTs lookback = .ok lookup ∧
      Plans indices (store.search (.ofIndices indices) .dependencyLinks) lookup.plan := by
  simp only [dependencies, h, ok_bind]
  split
  · rename_i hempty
    exact ⟨_, rfl, .nothing (List.isEmpty_iff.mp hempty) rfl⟩
  · rename_i hcons
    exact ⟨_, rfl, .search (fun hnil => hcons (List.isEmpty_iff.mpr hnil)) rfl⟩

namespace Archive

open DailyDocument (linksWithin linksWithin_of_lt)

variable {naming : Naming} {blocks : List Block}

section Reached

variable {first final : Int}
  (hnaming : naming.IsLiteral)
  (hnil : blocks ≠ [])
  (hcalendar : ∀ block ∈ blocks, block.InCalendar)
  (hcount : ∀ date : Date, date.IsValid → blocks.countP (·.holds date) =
    if first ≤ date.toDay ∧ date.toDay ≤ final then 1 else 0)

include hnaming hnil hcalendar hcount

/-- The entries of blocks that hold the days of a range reach a document just when it is that of a
dependency link of one of these days. -/
theorem isTarget_stored (document : DailyDocument) :
    isTarget (",".intercalate (blocks.map (naming.ofBlock DocType.dependency)))
        (document.stored naming).1 =
      (document.linkWithin? first final).isSome := by
  cases document with
  | link document date inCalendar =>
      have htarget := isTarget_ofDate_iff hnaming isLiteral_dependency hnil hcalendar hcount
        inCalendar
      rw [Bool.eq_iff_iff]
      refine htarget.trans ?_
      rw [DailyDocument.linkWithin?]
      split <;> simp [*]
  | other body date =>
      exact isTarget_ofBlock_eq_false hnaming isLiteral_dependency hnil
        (not_stem_prefix_span naming date)

/-- What these entries reach are the dependency links of the days of the range. -/
theorem filter_reached (documents : List DailyDocument) :
    ((documents.map (DailyDocument.stored naming)).filter fun document =>
        isTarget (",".intercalate (blocks.map (naming.ofBlock DocType.dependency)))
          document.1).map Prod.snd =
      (linksWithin first final documents).map LinkDocument.body := by
  have htarget := isTarget_stored hnaming hnil hcalendar hcount
  induction documents with
  | nil => rfl
  | cons document rest ih =>
      rw [List.map_cons, List.filter_cons, htarget, linksWithin, List.filterMap_cons]
      cases hwithin : document.linkWithin? first final with
      | none => exact ih
      | some kept =>
          rw [Option.isSome_some, if_pos rfl, List.map_cons, ih,
            DailyDocument.stored_of_linkWithin? hwithin]
          rfl

end Reached

/-- A search for all dependency links of some partitions comes to those that it reaches. -/
theorem settlesWith_links
    {documents : List (String × Json)} {indices : List String} {links : List LinkDocument}
    {maxHits : Int}
    (hreached : (documents.filter fun document =>
      isTarget (",".intercalate indices) document.1).map Prod.snd = links.map LinkDocument.body)
    (hhits : (links.length : Int) ≤ maxHits) :
    (Session.execution (backend documents)
      (.search ⟨.ofIndices indices, .dependencyLinks, .int maxHits⟩)).SettlesWith
        (.ok (.ofLinks (links.map LinkDocument.link))) := by
  -- without a query whatever is reached is found
  have hfound : ((documents.filter fun document =>
      isTarget (",".intercalate indices) document.1).map Prod.snd).filterM
        (meets (Option.map Query.toJson none)) = .ok (links.map LinkDocument.body) := by
    have hmeets : ∀ body ∈ links.map LinkDocument.body,
        meets (Option.map Query.toJson none) body = .ok true := fun _ _ => rfl
    rw [hreached, filterM_eq_ok hmeets, List.filter_true]
  have hread : Response.dependencyLinks (holding (links.map LinkDocument.body)) =
      .ok (links.map LinkDocument.link) :=
    documents_holding LinkDocument.reads "DependencyLink" links
  have hanswer : Session.answerOf ⟨.ofIndices indices, .dependencyLinks, .int maxHits⟩
      (search documents (",".intercalate indices)
        (SearchRequest.toJson ⟨indices, none, []⟩ (.int maxHits))) =
      .ok (.ofLinks (links.map LinkDocument.link)) := by
    rw [search_documents hfound (by rwa [List.length_map])]
    show ((Response.dependencyLinks _).map Value.ofLinks).mapError Failure.badResponse = _
    rw [hread]
    rfl
  rw [← hanswer]
  exact Session.settlesWith_plainSearch (fun _ _ => rfl) _

/-- **The links of the days of a window.**  Whenever the partitions of a window can be made out, the
lookup of dependency links comes to those that are stored on the days from that of the start of the
window to that of its end, each once and in storage order, if they are no more than the store asks
for. -/
theorem dependencies_of_window
    {store : SpanStore} {maxHits endTs lookback : Int} {indices : List String}
    (hnaming : store.naming.IsLiteral)
    (hmaxHits : store.maxHits = .int maxHits)
    (hindices : store.partitions DocType.dependency (.whole (windowStart endTs lookback))
      (.whole endTs) = .ok indices)
    (documents : List DailyDocument)
    (hhits : ((linksWithin (windowStart endTs lookback / 86400000) (endTs / 86400000)
      documents).length : Int) ≤ maxHits) :
    ∃ lookup, store.dependencies endTs lookback = .ok lookup ∧
      (Session.execution (backend (documents.map (DailyDocument.stored store.naming)))
        lookup.plan).SettlesWith
          (.ok (.ofLinks ((linksWithin (windowStart endTs lookback / 86400000) (endTs / 86400000)
            documents).map LinkDocument.link))) := by
  obtain ⟨lookup, hlookup, hplans⟩ := SpanStore.exists_dependencies hindices
  refine ⟨lookup, hlookup, ?_⟩
  cases hplans with
  | nothing hnil hplan =>
      have hempty := (SpanStore.partitions_eq_nil_iff hindices).mp hnil
      rw [hplan, linksWithin_of_lt hempty]
      exact Session.settlesWith_constant (.ofLinks [])
  | search hcons hplan =>
      obtain ⟨first, final, blocks, hfirst, hfinal, hblocks, rfl⟩ :=
        Naming.ofInstants_eq_ok (mapError_eq_ok_iff.mp hindices)
      obtain ⟨rfl, hbegin, -⟩ := Calendar.dayOfMillis_eq_ok_iff.mp hfirst
      obtain ⟨rfl, -, -⟩ := Calendar.dayOfMillis_eq_ok_iff.mp hfinal
      obtain ⟨hcalendar, hcount⟩ := Partition.spec_of_blocksFrom hbegin hblocks
      have hnil : blocks ≠ [] := fun h => hcons (h ▸ rfl)
      rw [hplan, SpanStore.search, hmaxHits]
      exact settlesWith_links (filter_reached hnaming hnil hcalendar hcount documents) hhits

/-! ### The links of a month -/

/-- The document of a link that was counted some times. -/
def countedLink (parent child : String) (count : Int) : LinkDocument where
  body := .obj [("parent", .str parent), ("child", .str child), ("callCount", .int count)]
  link := ⟨parent, child, count, 0⟩
  reads := rfl

/-- Links just before and just after the days from the last of March to the first of May 2016, and on
the first of May and in April, with a span between them. -/
def springDocuments : List DailyDocument :=
  [.link (countedLink "web" "cart" 1) ⟨2016, 3, 30⟩ (by decide),
    .link (countedLink "web" "cart" 2) ⟨2016, 5, 1⟩ (by decide),
    .other .null ⟨2016, 4, 15⟩,
    .link (countedLink "cart" "disk" 3) ⟨2016, 4, 15⟩ (by decide),
    .link (countedLink "web" "cart" 4) ⟨2016, 5, 2⟩ (by decide)]

/-- A window that begins within the last of March and ends with the start of the first of May. -/
theorem dependencies_of_spring :
    ∃ lookup, smallConfig.store.dependencies 1462060800000 2635200000 = .ok lookup ∧
      (Session.execution
        (backend (springDocuments.map (DailyDocument.stored smallConfig.store.naming)))
        lookup.plan).SettlesWith
          (.ok (.ofLinks [⟨"web", "cart", 2, 0⟩, ⟨"cart", "disk", 3, 0⟩])) := by
  have hindices : smallConfig.store.partitions DocType.dependency
      (.whole (windowStart 1462060800000 2635200000)) (.whole 1462060800000) =
      .ok ["zipkin-dependency-2016-03-31", "zipkin-dependency-2016-04-*",
        "zipkin-dependency-2016-05-01"] := by cbv
  exact dependencies_of_window ⟨by decide, by decide⟩ rfl hindices springDocuments (by decide)

end Archive
end TraceArchive
