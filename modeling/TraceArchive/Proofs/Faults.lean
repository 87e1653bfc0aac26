import TraceArchive.Call.Body
import TraceArchive.Proofs.Assembly
import TraceArchive.Proofs.Decoding
import TraceArchive.Proofs.Validation

/-!
# What assembling traces could stumble over

The matcher compares durations with a least one that may be missing, and takes entries out of what
is left of a query, which may not be there.  `Criteria.matchesTrace` is total, so that neither can
be seen in it.  Here both are faults of their own, next to the errors that assembling has anyway,
and every step is shown to go as the total one does when what it relies on holds:

* an entry is taken out only after it was looked up (`removeWitnessedNote_eq`,
  `removeWitnessedTag_eq`);
* as long as a duration is pending, there is a least one to compare it with (`see_isChecked`,
  `matchChecked_eq`);
* no group is empty, and the listed texts are trace IDs (`assembleChecked_eq`, `grouping_returns`).
-/

set_option autoImplicit false

namespace TraceArchive

/-- What matching a trace could stumble over. -/
inductive MatchFault where
  | missingLeast
  | missingEntry (key : String)
  deriving DecidableEq, Repr

/-- What assembling traces could stumble over. -/
inductive GroupingFault where
  | traces (error : TraceError)
  | matching (fault : MatchFault)
  deriving Repr

namespace AnnotationQuery

/-- Takes out the entry of a key, which has to be there. -/
def remove (key : String) (query : AnnotationQuery) : Except MatchFault AnnotationQuery :=
  match Entries.get? key query with
  | some _ => .ok (Entries.erase key query)
  | none => .error (.missingEntry key)

/-- Takes out the entry that an annotation witnesses, if there is one. -/
def removeWitnessedNote
    (query : AnnotationQuery)
    (note : Annotation) :
    Except MatchFault AnnotationQuery :=
  if Entries.get? note.value query = some "" then query.remove note.value else .ok query

/-- Takes out the entry that a tag witnesses, if there is one. -/
def removeWitnessedTag
    (query : AnnotationQuery)
    (tag : String × String) :
    Except MatchFault AnnotationQuery :=
  match Entries.get? tag.1 query with
  | none => .ok query
  | some expected =>
      if expected = "" ∨ expected = tag.2 then query.remove tag.1 else .ok query

theorem remove_of_get?
    {key value : String} {query : AnnotationQuery}
    (h : Entries.get? key query = some value) :
    query.remove key = .ok (Entries.erase key query) := by
  rw [remove, h]

theorem removeWitnessedNote_eq (query : AnnotationQuery) (note : Annotation) :
    query.removeWitnessedNote note = .ok (Criteria.Pending.seeAnnotation query note) := by
  rw [removeWitnessedNote, Criteria.Pending.seeAnnotation]
  split
  · rename_i hfound
    exact remove_of_get? hfound
  · rfl

theorem removeWitnessedTag_eq (query : AnnotationQuery) (tag : String × String) :
    query.removeWitnessedTag tag = .ok (Criteria.Pending.seeTag query tag) := by
  rw [removeWitnessedTag, Criteria.Pending.seeTag]
  cases hfound : Entries.get? tag.1 query with
  | none => rfl
  | some expected =>
      simp only
      split
      · exact remove_of_get? hfound
      · rfl

end AnnotationQuery

namespace Criteria

/-- A duration is compared with the least one, which has to be there, and with the greatest one if
there is one. -/
def compareDuration (criteria : Criteria) (span : Span) : Except MatchFault Bool :=
  let duration := span.duration.getD 0
  match criteria.maxDuration, criteria.minDuration with
  | _, none => .error .missingLeast
  | some most, some least => .ok (least ≤ duration && duration ≤ most)
  | none, some least => .ok (least ≤ duration)

/-- A duration stays pending when that of a span does not fit; once one did, none is compared. -/
def Pending.compare
    (criteria : Criteria)
    (pending : Pending)
    (span : Span) :
    Except MatchFault Bool :=
  if pending.duration then (!·) <$> criteria.compareDuration span else .ok false

/-- What a span of the requested service leaves pending, if nothing goes wrong. -/
def Pending.seeChecked
    (criteria : Criteria)
    (pending : Pending)
    (span : Span) :
    Except MatchFault Pending := do
  let annotations ← span.annotations.foldlM AnnotationQuery.removeWitnessedNote pending.annotations
  let annotations ← span.tags.foldlM AnnotationQuery.removeWitnessedTag annotations
  let duration ← pending.compare criteria span
  return {
    service := false
    spanName := if pending.spanName = span.name then none else pending.spanName
    annotations := annotations
    duration := duration }

/-- The spans of a trace satisfy the criteria, if nothing goes wrong. -/
def matchChecked (criteria : Criteria) (spans : List Span) : Except MatchFault Bool :=
  if criteria.inWindow (traceTimestamp spans) then
    Pending.isDone <$>
      (spans.filter criteria.concerns).foldlM (Pending.seeChecked criteria) (.start criteria)
  else .ok false

variable {criteria : Criteria}

theorem compareDuration_eq
    (hleast : criteria.minDuration.isSome)
    (span : Span) :
    criteria.compareDuration span = .ok (criteria.durationFits span) := by
  obtain ⟨least, hleast⟩ := Option.isSome_iff_exists.mp hleast
  cases hmost : criteria.maxDuration <;> simp [compareDuration, durationFits, hleast, hmost]

/-- A duration that is pending can be compared with a least one. -/
def Pending.IsComparable (criteria : Criteria) (pending : Pending) : Prop :=
  pending.duration = true → criteria.minDuration.isSome

theorem Pending.isComparable_start
    (bounds : criteria.maxDuration.isSome → criteria.minDuration.isSome) :
    IsComparable criteria (.start criteria) := by
  intro hpending
  rcases Bool.or_eq_true_iff.mp hpending with hleast | hmost
  · exact hleast
  · exact bounds hmost

theorem Pending.IsComparable.see
    {pending : Pending}
    (h : pending.IsComparable criteria)
    (span : Span) :
    (pending.see criteria span).IsComparable criteria :=
  fun hpending => h (Bool.and_eq_true_iff.mp hpending).1

theorem Pending.compare_eq
    {pending : Pending}
    (h : pending.IsComparable criteria)
    (span : Span) :
    pending.compare criteria span = .ok (pending.duration && !criteria.durationFits span) := by
  rw [compare]
  cases hpending : pending.duration with
  | false => rfl
  | true =>
      rw [if_pos rfl, compareDuration_eq (h hpending)]
      rfl

theorem foldlM_witnessedNotes (query : AnnotationQuery) (notes : List Annotation) :
    notes.foldlM AnnotationQuery.removeWitnessedNote query =
      .ok (notes.foldl Pending.seeAnnotation query) :=
  foldlM_eq_ok (fun _ => True) (fun query _ note => ⟨query.removeWitnessedNote_eq note, trivial⟩)
    notes trivial

theorem foldlM_witnessedTags (query : AnnotationQuery) (tags : List (String × String)) :
    tags.foldlM AnnotationQuery.removeWitnessedTag query =
      .ok (tags.foldl Pending.seeTag query) :=
  foldlM_eq_ok (fun _ => True) (fun query _ tag => ⟨query.removeWitnessedTag_eq tag, trivial⟩)
    tags trivial

/-- A span is seen without a fault. -/
theorem Pending.seeChecked_eq
    {pending : Pending}
    (h : pending.IsComparable criteria)
    (span : Span) :
    pending.seeChecked criteria span = .ok (pending.see criteria span) := by
  rw [seeChecked, foldlM_witnessedNotes, ok_bind, foldlM_witnessedTags, ok_bind, compare_eq h]
  rfl

/-- Traces are matched without a fault when a greatest duration comes with a least one. -/
theorem matchChecked_eq
    (bounds : criteria.maxDuration.isSome → criteria.minDuration.isSome)
    (spans : List Span) :
    criteria.matchChecked spans = .ok (criteria.matchesTrace spans) := by
  rw [matchChecked, matchesTrace]
  cases criteria.inWindow (traceTimestamp spans) with
  | false => rfl
  | true =>
      have hseen := foldlM_eq_ok (Pending.IsComparable criteria)
        (fun pending h span => ⟨pending.seeChecked_eq h span, h.see span⟩)
        (spans.filter criteria.concerns) (Pending.isComparable_start bounds)
      rw [if_pos rfl, hseen]
      rfl

/-- Bounds that were not checked do fault: a greatest duration without a least one, at the first
span of the requested service. -/
theorem matchChecked_of_missingLeast
    (hmost : criteria.maxDuration.isSome)
    (hleast : criteria.minDuration = none)
    {spans : List Span}
    (hwindow : criteria.inWindow (traceTimestamp spans) = true)
    (hconcerns : ∃ span ∈ spans, criteria.concerns span = true) :
    criteria.matchChecked spans = .error .missingLeast := by
  obtain ⟨span, hmem, hspan⟩ := hconcerns
  cases hfilter : spans.filter criteria.concerns with
  | nil =>
      have hkept : span ∈ spans.filter criteria.concerns := List.mem_filter.mpr ⟨hmem, hspan⟩
      rw [hfilter] at hkept
      cases hkept
  | cons first rest =>
      have hpending : (Pending.start criteria).duration = true := by simp [Pending.start, hmost]
      have hcompare : (Pending.start criteria).compare criteria first = .error .missingLeast := by
        rw [Pending.compare, if_pos hpending, compareDuration, hleast]
        rfl
      have hseen : (Pending.start criteria).seeChecked criteria first = .error .missingLeast := by
        rw [Pending.seeChecked, foldlM_witnessedNotes, ok_bind, foldlM_witnessedTags, ok_bind,
          hcompare]
        rfl
      rw [matchChecked, if_pos hwindow, hfilter, List.foldlM_cons, hseen]
      rfl

end Criteria

namespace Trace

/-- A trace is kept, if nothing goes wrong. -/
def keepChecked (criteria : Criteria) : Trace → Except GroupingFault Bool
  | [] => .error (.traces .emptyTrace)
  | span :: rest =>
      if span.traceId.high = 0 then .ok true
      else (criteria.matchChecked (span :: rest)).mapError .matching

/-- The traces that a search answers with, if nothing goes wrong. -/
def assembleChecked
    (criteria : Criteria)
    (strict : Bool)
    (ids : List String)
    (spans : List Span) :
    Except GroupingFault (List Trace) := do
  let sorted ← (sortByIds strict (ids.map .str) (group strict spans)).mapError .traces
  sorted.filterM (keepChecked criteria)

variable {criteria : Criteria}

theorem keepChecked_eq
    (bounds : criteria.maxDuration.isSome → criteria.minDuration.isSome)
    (trace : Trace) :
    keepChecked criteria trace = (isKept criteria trace).mapError .traces := by
  cases trace with
  | nil => rfl
  | cons span rest =>
      rw [keepChecked, isKept, Criteria.matchChecked_eq bounds]
      cases hhigh : decide (span.traceId.high = 0) <;> simp_all [Except.mapError]

/-- Traces are assembled with no fault but the errors that assembling has. -/
theorem assembleChecked_eq
    (bounds : criteria.maxDuration.isSome → criteria.minDuration.isSome)
    (strict : Bool)
    (ids : List String)
    (spans : List Span) :
    assembleChecked criteria strict ids spans =
      (assemble criteria strict ids spans).mapError .traces := by
  rw [assembleChecked, assemble]
  cases sortByIds strict (ids.map .str) (group strict spans) with
  | error error => rfl
  | ok sorted =>
      show sorted.filterM (keepChecked criteria) = (verify criteria sorted).mapError .traces
      rw [funext (keepChecked_eq bounds), verify, filterM_mapError]

end Trace

namespace Session

/-- Whoever watches for a phase fails only when canceling a call does not end. -/
theorem alert_eq_error
    {phase : SearchPhase} {watches : List (SearchPhase × CallId)}
    {session after : Session} {failure : Failure}
    (h : alert phase watches session = (.error failure, after)) :
    failure = .endless := by
  induction watches generalizing session after with
  | nil => cases h
  | cons watch rest ih =>
      rw [alert] at h
      split at h
      · cases hcancel : session.cancel watch.2 with
        | mk result canceled =>
            rw [hcancel] at h
            cases result with
            | ok _ => exact ih h
            | error error =>
                have hresult : (if session.calls.cancelEnds watch.2 then Except.ok ()
                    else .error .endless) = .error error := congrArg Prod.fst hcancel
                split at hresult <;> simp_all
      · obtain ⟨hresult, -⟩ := Prod.mk.inj h
        exact ih (Prod.ext hresult rfl)

theorem enterPhase_eq_error
    {session after : Session} {id : CallId} {phase : SearchPhase} {failure : Failure}
    (h : session.enterPhase id phase = (.error failure, after)) :
    failure = .endless := by
  rw [enterPhase] at h
  split at h
  · cases h
  · exact alert_eq_error h

/-- A body that enters a phase goes on from there, unless canceling a call there does not end. -/
theorem passPhase_ends
    {session : Session} {id : CallId} {phase : SearchPhase}
    {next : Session → Progress × Session} {outcomes : Outcome → Prop}
    (hendless : outcomes (.error .endless))
    (hnext : ∀ session, ∃ outcome, outcomes outcome ∧ (next session).1 = .ends outcome) :
    ∃ outcome, outcomes outcome ∧ (session.passPhase id phase next).1 = .ends outcome := by
  rw [passPhase]
  split
  · exact hnext _
  · rename_i failure entered hfailed
    exact ⟨.error failure, enterPhase_eq_error hfailed ▸ hendless, rfl⟩

/-- The grouping phase of a trace search does not fail.  With criteria that were read and trace IDs
that were listed, no step that assembles the traces faults, whatever spans were fetched and whether
or not trace IDs are strict.  The body of the search then ends with these traces, unless someone who
watches its phases cancels a call and that does not end. -/
theorem grouping_returns
    {data body : Json} {criteria : Criteria} {ids : List String}
    (valid : Criteria.read data = .ok criteria)
    (listed : Response.traceIds body = .ok ids)
    (strict : Bool)
    (spans : List Span) :
    ∃ traces,
      Trace.assembleChecked criteria strict ids spans = .ok traces ∧
      Trace.assemble criteria strict ids spans = .ok traces ∧
      ∀ (session : Session) (id : CallId) (search : TraceSearch),
        search.criteria = criteria → search.strict = strict →
        ∃ outcome, (outcome = .ok (.ofTraces traces) ∨ outcome = .error .endless) ∧
          (session.assembleFetched id search ids spans).1 = .ends outcome := by
  have bounds : criteria.maxDuration.isSome → criteria.minDuration.isSome := by
    intro hmost
    obtain ⟨most, hmost⟩ := Option.isSome_iff_exists.mp hmost
    obtain ⟨least, hleast, -⟩ := (Criteria.isBounded_of_read valid).mostDuration most hmost
    exact Option.isSome_iff_exists.mpr ⟨least, hleast⟩
  have hids : ∀ id ∈ ids, (TraceId.parse? id).isSome := by
    obtain ⟨keys, -, hseen, hparse⟩ := Response.traceIds_eq_ok_iff.mp listed
    exact fun id hmem => hparse id ((hseen.mem_iff id).mp hmem)
  have hread := Trace.mapM_readId_of_isSome hids
  have hassembled := @Trace.assemble_eq strict criteria ids _ hread spans
  refine ⟨_, ?_, hassembled, ?_⟩
  · rw [Trace.assembleChecked_eq bounds, hassembled]
    rfl
  · rintro session id search rfl rfl
    refine passPhase_ends (Or.inr rfl) fun session => ?_
    simp only [hassembled]
    split
    · exact ⟨_, Or.inl rfl, rfl⟩
    · rename_i failure entered hfailed
      exact ⟨.error failure, Or.inr (congrArg _ (enterPhase_eq_error hfailed)), rfl⟩

/-- Criteria with both bounds on the duration and both kinds of query entries. -/
def boundedErrorOfWeb : Json :=
  .obj [
    ("service_name", .str "Web"),
    ("annotation_query", .str "error and http.method=GET"),
    ("min_duration", .int 5), ("max_duration", .int 20),
    ("end_ts", .int 10), ("lookback", .int 4), ("limit", .int 1)]

/-- One trace ID with a high half, in two spellings. -/
def idsWide : List String :=
  ["10000000000000002", "00000000000000010000000000000002"]

/-- A response that lists both. -/
def listingWide : Json :=
  .single "aggregations" (.single "traceId" (.single "buckets"
    (.arr (idsWide.map fun id => .single "key" (.str id)))))

/-- Spans of that trace, of which one witnesses the duration and the entries, and another takes
longer. -/
def spansWide : List Span :=
  [⟨⟨1, 2⟩, "a", none, none, none, some 7000, some 9, some ⟨some "web", none, none, none⟩,
      none, [⟨7000, "error"⟩, ⟨7001, "error"⟩], [("http.method", "GET")], none, none⟩,
    ⟨⟨1, 2⟩, "b", some "a", none, none, none, some 30, some ⟨some "web", none, none, none⟩,
      none, [⟨7002, "error"⟩], [("http.method", "GET")], none, none⟩]

theorem grouping_returns_spansWide :
    ∃ criteria,
      Criteria.read boundedErrorOfWeb = .ok criteria ∧
      Response.traceIds listingWide = .ok idsWide ∧
      ∃ traces,
        Trace.assembleChecked criteria true idsWide spansWide = .ok traces ∧
        Trace.assemble criteria true idsWide spansWide = .ok traces ∧
        ∀ (session : Session) (id : CallId) (search : TraceSearch),
          search.criteria = criteria → search.strict = true →
          ∃ outcome, (outcome = .ok (.ofTraces traces) ∨ outcome = .error .endless) ∧
            (session.assembleFetched id search idsWide spansWide).1 = .ends outcome := by
  have hread : Criteria.read boundedErrorOfWeb = .ok _ := rfl
  have hlisted : Response.traceIds listingWide = .ok idsWide := rfl
  exact ⟨_, hread, hlisted, grouping_returns hread hlisted true spansWide⟩

end Session

end TraceArchive
