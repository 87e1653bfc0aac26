import TraceArchive.Criteria.Match
import TraceArchive.Proofs.Validation

/-!
# What it means that a trace satisfies criteria

`Criteria.matchesTrace` goes over the spans of a trace once and keeps what is still pending.  Here
the criteria are stated one by one, each with a witness of its own among the spans of the requested
service, and the single pass is shown to decide them.

* `IsTraceTimestamp`: the timestamp of a trace, from its first root or from its earliest span.
* `Criteria.Meets`: what criteria ask of the spans of a trace.
* `mem_foldl_see`: the query entries that a run of spans leaves are those that none of them
  witnesses.
* `matchesTrace_iff_meets`, `matchesTrace_iff_meets_of_read`: the single pass decides
  `Criteria.Meets`.
* `meets_singleton_iff`: what criteria ask of a single span.
-/

set_option autoImplicit false

namespace TraceArchive

/-- A root span that has a timestamp. -/
def Span.IsStartedRoot (span : Span) : Prop :=
  span.parentId = none ∧ span.startedAt ≠ none

instance (span : Span) : Decidable span.IsStartedRoot :=
  inferInstanceAs (Decidable (_ ∧ _))

theorem Span.startedAt_eq_some_iff {span : Span} {t : Int} :
    span.startedAt = some t ↔ span.timestamp = some t ∧ t ≠ 0 := by
  cases h : span.timestamp <;> simp [startedAt, h, Option.filter_some]
  grind

/-- The timestamp of a trace: that of the first root that has one, else the earliest of all.  Zero
counts as no timestamp. -/
inductive IsTraceTimestamp (spans : List Span) (t : Int) : Prop
  | root
      (before : List Span) (span : Span) (after : List Span)
      (split : spans = before ++ span :: after)
      (first : ∀ earlier ∈ before, ¬ earlier.IsStartedRoot)
      (isRoot : span.parentId = none)
      (starts : span.startedAt = some t) :
      IsTraceTimestamp spans t
  | earliest
      (noRoot : ∀ span ∈ spans, ¬ span.IsStartedRoot)
      (starts : ∃ span ∈ spans, span.startedAt = some t)
      (least : ∀ span ∈ spans, ∀ u, span.startedAt = some u → t ≤ u) :
      IsTraceTimestamp spans t

namespace Criteria

/-- A span was recorded by the requested service, if one is requested. -/
def OfService (criteria : Criteria) (span : Span) : Prop :=
  ∀ service, criteria.serviceName = some service → span.localService = some service

/-- What criteria ask of the spans of a trace.  Each clause has a witness of its own. -/
structure Meets (criteria : Criteria) (spans : List Span) : Prop where
  window : ∃ t, IsTraceTimestamp spans t ∧
    (criteria.endTs - criteria.lookback) * 1000 ≤ t ∧ t ≤ criteria.endTs * 1000
  service : ∃ span ∈ spans, criteria.OfService span
  spanName : ∀ name, criteria.spanName = some name →
    ∃ span ∈ spans, criteria.OfService span ∧ span.name = some name
  presence : ∀ key, (key, "") ∈ criteria.annotationQuery →
    ∃ span ∈ spans, criteria.OfService span ∧
      ((∃ note ∈ span.annotations, note.value = key) ∨ ∃ value, (key, value) ∈ span.tags)
  tagValue : ∀ key value, (key, value) ∈ criteria.annotationQuery → value ≠ "" →
    ∃ span ∈ spans, criteria.OfService span ∧ (key, value) ∈ span.tags
  duration : ∀ least, criteria.minDuration = some least →
    ∃ span ∈ spans, criteria.OfService span ∧ least ≤ span.duration.getD 0 ∧
      ∀ most, criteria.maxDuration = some most → span.duration.getD 0 ≤ most

/-! ### The timestamp of a trace -/

theorem timestampFrom_append_of_no_root
    {before : List Span}
    (noRoot : ∀ span ∈ before, ¬ span.IsStartedRoot)
    (after : List Span) (earliest : Int) :
    timestampFrom earliest (before ++ after) =
      timestampFrom (timestampFrom earliest before) after := by
  induction before generalizing earliest with
  | nil => rfl
  | cons span rest ih =>
      obtain ⟨hspan, hrest⟩ := List.forall_mem_cons.mp noRoot
      cases hs : span.startedAt with
      | none => simpa [timestampFrom, hs] using ih hrest earliest
      | some t =>
          have hparent : span.parentId.isNone = false := by
            simpa [Span.IsStartedRoot, hs, ← Option.isNone_iff_eq_none] using hspan
          simpa [timestampFrom, hs, hparent] using ih hrest _

/-- Without a root, zero stays only when no span has a timestamp. -/
theorem timestampFrom_eq_zero_iff
    {spans : List Span}
    (noRoot : ∀ span ∈ spans, ¬ span.IsStartedRoot)
    (earliest : Int) :
    timestampFrom earliest spans = 0 ↔
      earliest = 0 ∧ ∀ span ∈ spans, span.startedAt = none := by
  induction spans generalizing earliest with
  | nil => simp [timestampFrom]
  | cons span rest ih =>
      obtain ⟨hspan, hrest⟩ := List.forall_mem_cons.mp noRoot
      cases hs : span.startedAt with
      | none => simp [timestampFrom, hs, ih hrest]
      | some t =>
          have hparent : span.parentId.isNone = false := by
            simpa [Span.IsStartedRoot, hs, ← Option.isNone_iff_eq_none] using hspan
          have ht := (Span.startedAt_eq_some_iff.mp hs).2
          rw [timestampFrom, hs]
          simp only [hparent, Bool.false_eq_true, if_false, ih hrest]
          grind

/-- Without a root, the result is bounded by where the search starts and by every timestamp. -/
theorem timestampFrom_le
    {spans : List Span}
    (noRoot : ∀ span ∈ spans, ¬ span.IsStartedRoot)
    (earliest : Int) :
    (earliest ≠ 0 → timestampFrom earliest spans ≤ earliest) ∧
      ∀ span ∈ spans, ∀ t, span.startedAt = some t → timestampFrom earliest spans ≤ t := by
  induction spans generalizing earliest with
  | nil => simp [timestampFrom]
  | cons span rest ih =>
      obtain ⟨hspan, hrest⟩ := List.forall_mem_cons.mp noRoot
      cases hs : span.startedAt with
      | none => simpa [timestampFrom, hs] using ih hrest earliest
      | some t =>
          have hparent : span.parentId.isNone = false := by
            simpa [Span.IsStartedRoot, hs, ← Option.isNone_iff_eq_none] using hspan
          have ht := (Span.startedAt_eq_some_iff.mp hs).2
          obtain ⟨hstart, hall⟩ :=
            ih hrest (if earliest = 0 ∨ t < earliest then t else earliest)
          simp only [timestampFrom, hs, hparent, Bool.false_eq_true, if_false,
            List.forall_mem_cons, Option.some.injEq, forall_eq']
          refine ⟨fun _ => ?_, ?_, hall⟩
          · grind
          · grind

/-- Without a root, the result is where the search starts or the timestamp of a span. -/
theorem timestampFrom_mem
    {spans : List Span}
    (noRoot : ∀ span ∈ spans, ¬ span.IsStartedRoot)
    (earliest : Int) :
    timestampFrom earliest spans = earliest ∨
      ∃ span ∈ spans, span.startedAt = some (timestampFrom earliest spans) := by
  induction spans generalizing earliest with
  | nil => exact Or.inl rfl
  | cons span rest ih =>
      obtain ⟨hspan, hrest⟩ := List.forall_mem_cons.mp noRoot
      cases hs : span.startedAt with
      | none => simpa [timestampFrom, hs] using ih hrest earliest
      | some t =>
          have hparent : span.parentId.isNone = false := by
            simpa [Span.IsStartedRoot, hs, ← Option.isNone_iff_eq_none] using hspan
          simp only [timestampFrom, hs, hparent, Bool.false_eq_true, if_false]
          rcases ih hrest (if earliest = 0 ∨ t < earliest then t else earliest) with h | h
          · by_cases hlt : earliest = 0 ∨ t < earliest
            · rw [if_pos hlt] at h ⊢
              exact Or.inr ⟨span, List.mem_cons_self, by rw [hs, h]⟩
            · rw [if_neg hlt] at h ⊢
              exact Or.inl h
          · obtain ⟨other, hother, hstarts⟩ := h
            exact Or.inr ⟨other, List.mem_cons_of_mem _ hother, hstarts⟩

/-- The search for the timestamp finds it, and zero when there is none. -/
theorem isTraceTimestamp_iff {spans : List Span} {t : Int} :
    IsTraceTimestamp spans t ↔ traceTimestamp spans = t ∧ t ≠ 0 := by
  constructor
  · rintro (⟨before, span, after, rfl, first, isRoot, starts⟩ | ⟨noRoot, ⟨span, hmem, starts⟩, least⟩)
    · refine ⟨?_, (Span.startedAt_eq_some_iff.mp starts).2⟩
      rw [traceTimestamp, timestampFrom_append_of_no_root first]
      simp [timestampFrom, starts, isRoot]
    · refine ⟨?_, (Span.startedAt_eq_some_iff.mp starts).2⟩
      have hle : traceTimestamp spans ≤ t := (timestampFrom_le noRoot 0).2 span hmem t starts
      rcases timestampFrom_mem noRoot 0 with hzero | ⟨other, hother, hstarts⟩
      · have hnone := ((timestampFrom_eq_zero_iff noRoot 0).mp hzero).2 span hmem
        simp [hnone] at starts
      · have hge : t ≤ traceTimestamp spans := least other hother _ hstarts
        omega
  · rintro ⟨rfl, hne⟩
    cases hfind : spans.find? (fun span => decide span.IsStartedRoot) with
    | some span =>
        obtain ⟨hroot, before, after, rfl, hbefore⟩ := List.find?_eq_some_iff_append.mp hfind
        obtain ⟨hparent, hstarted⟩ := of_decide_eq_true hroot
        have first : ∀ earlier ∈ before, ¬ earlier.IsStartedRoot := by simpa using hbefore
        obtain ⟨t, ht⟩ := Option.ne_none_iff_exists'.mp hstarted
        have heq : traceTimestamp (before ++ span :: after) = t := by
          rw [traceTimestamp, timestampFrom_append_of_no_root first]
          simp [timestampFrom, ht, hparent]
        exact .root before span after rfl first hparent (heq ▸ ht)
    | none =>
        have noRoot : ∀ span ∈ spans, ¬ span.IsStartedRoot := by simpa using hfind
        have hmem : ∃ span ∈ spans, span.startedAt = some (traceTimestamp spans) :=
          (timestampFrom_mem noRoot 0).resolve_left hne
        exact .earliest noRoot hmem (timestampFrom_le noRoot 0).2

theorem inWindow_iff {criteria : Criteria} {t : Int} :
    criteria.inWindow t = true ↔
      t ≠ 0 ∧ (criteria.endTs - criteria.lookback) * 1000 ≤ t ∧ t ≤ criteria.endTs * 1000 := by
  simp [inWindow, and_assoc]

theorem exists_mem_of_isTraceTimestamp
    {spans : List Span} {t : Int}
    (h : IsTraceTimestamp spans t) :
    ∃ span, span ∈ spans := by
  rcases h with ⟨before, span, after, rfl, -, -, -⟩ | ⟨-, ⟨span, hmem, -⟩, -⟩
  · exact ⟨span, by simp⟩
  · exact ⟨span, hmem⟩

/-- The time window is met exactly when the trace has a timestamp in it. -/
theorem inWindow_traceTimestamp_iff {criteria : Criteria} {spans : List Span} :
    criteria.inWindow (traceTimestamp spans) = true ↔
      ∃ t, IsTraceTimestamp spans t ∧
        (criteria.endTs - criteria.lookback) * 1000 ≤ t ∧ t ≤ criteria.endTs * 1000 := by
  simp only [inWindow_iff, isTraceTimestamp_iff]
  constructor
  · rintro ⟨hne, hle, hge⟩
    exact ⟨_, ⟨rfl, hne⟩, hle, hge⟩
  · rintro ⟨t, ⟨rfl, hne⟩, hle, hge⟩
    exact ⟨hne, hle, hge⟩

/-! ### The query entries that spans witness -/

/-- A span witnesses an entry of a query: an annotation or a tag has its key, or a tag has its key
and its value. -/
def Witnesses (span : Span) (entry : String × String) : Prop :=
  (entry.2 = "" ∧ ∃ note ∈ span.annotations, note.value = entry.1) ∨
    ∃ tag ∈ span.tags, tag.1 = entry.1 ∧ (entry.2 = "" ∨ entry.2 = tag.2)

namespace Pending

variable {query : AnnotationQuery}

theorem nodup_seeNote
    (nodup : (Entries.keys query).Nodup)
    (note : Annotation) :
    (Entries.keys <| seeAnnotation query note).Nodup := by
  unfold seeAnnotation
  split
  · exact Entries.nodup_keys_erase nodup _
  · exact nodup

theorem nodup_seeTag
    (nodup : (Entries.keys query).Nodup)
    (tag : String × String) :
    (Entries.keys (seeTag query tag)).Nodup := by
  unfold seeTag
  split
  · exact nodup
  · split
    · exact Entries.nodup_keys_erase nodup _
    · exact nodup

/-- Of two entries of a query with one key, the values agree. -/
theorem value_unique
    (nodup : (Entries.keys query).Nodup)
    {key value : String} {entry : String × String}
    (hmem : entry ∈ query)
    (hkey : entry.1 = key)
    (hget : Entries.get? key query = some value) :
    entry.2 = value := by
  subst hkey
  have hentry := (Entries.get?_eq_some_iff nodup).mpr (show (entry.1, entry.2) ∈ query from hmem)
  exact Option.some.inj (hentry.symm.trans hget)

theorem mem_seeNote
    (nodup : (Entries.keys query).Nodup)
    (note : Annotation) (entry : String × String) :
    entry ∈ seeAnnotation query note ↔
      entry ∈ query ∧ ¬ (entry.2 = "" ∧ note.value = entry.1) := by
  unfold seeAnnotation
  split
  · rename_i hget
    rw [Entries.mem_erase]
    refine and_congr_right fun hmem => not_congr ⟨fun hkey => ?_, fun h => h.2.symm⟩
    exact ⟨value_unique nodup hmem hkey hget, hkey.symm⟩
  · rename_i hget
    refine ⟨fun hmem => ⟨hmem, ?_⟩, fun h => h.1⟩
    rintro ⟨hvalue, hkey⟩
    refine hget ((Entries.get?_eq_some_iff nodup).mpr ?_)
    rwa [hkey, ← hvalue]

theorem mem_seeTag
    (nodup : (Entries.keys query).Nodup)
    (tag entry : String × String) :
    entry ∈ seeTag query tag ↔
      entry ∈ query ∧ ¬ (tag.1 = entry.1 ∧ (entry.2 = "" ∨ entry.2 = tag.2)) := by
  unfold seeTag
  split
  · rename_i hget
    have habsent := Entries.get?_eq_none_iff.mp hget
    refine ⟨fun hmem => ⟨hmem, ?_⟩, fun h => h.1⟩
    rintro ⟨hkey, -⟩
    exact habsent (hkey ▸ List.mem_map_of_mem hmem)
  · rename_i expected hget
    have hexpected : ∀ {entry}, entry ∈ query → entry.1 = tag.1 → entry.2 = expected :=
      fun hmem hkey => value_unique nodup hmem hkey hget
    split
    · rename_i hmeets
      rw [Entries.mem_erase]
      refine and_congr_right fun hmem => not_congr ⟨fun hkey => ?_, fun h => h.1.symm⟩
      rw [hexpected hmem hkey]
      exact ⟨hkey.symm, hmeets⟩
    · rename_i hfails
      refine ⟨fun hmem => ⟨hmem, ?_⟩, fun h => h.1⟩
      rintro ⟨hkey, hmeets⟩
      rw [hexpected hmem hkey.symm] at hmeets
      exact hfails hmeets

/-- After the annotations of a span, exactly the entries are left whose presence none of them
shows. -/
theorem mem_foldl_seeNote
    (nodup : (Entries.keys query).Nodup)
    (notes : List Annotation) (entry : String × String) :
    entry ∈ notes.foldl seeAnnotation query ↔
      entry ∈ query ∧ ¬ (entry.2 = "" ∧ ∃ note ∈ notes, note.value = entry.1) := by
  induction notes generalizing query with
  | nil => simp
  | cons note rest ih =>
      rw [List.foldl_cons, ih (nodup_seeNote nodup note), mem_seeNote nodup]
      simp only [List.mem_cons, or_and_right, exists_or, exists_eq_left, and_or_left, not_or,
        and_assoc]

/-- After the tags of a span, exactly the entries are left that none of them meets. -/
theorem mem_foldl_seeTag
    (nodup : (Entries.keys query).Nodup)
    (tags : Entries String String) (entry : String × String) :
    entry ∈ tags.foldl seeTag query ↔
      entry ∈ query ∧ ¬ ∃ tag ∈ tags, tag.1 = entry.1 ∧ (entry.2 = "" ∨ entry.2 = tag.2) := by
  induction tags generalizing query with
  | nil => simp
  | cons tag rest ih =>
      rw [List.foldl_cons, ih (nodup_seeTag nodup tag), mem_seeTag nodup]
      simp only [List.mem_cons, or_and_right, exists_or, exists_eq_left, not_or, and_assoc]

theorem nodup_foldl {β : Type}
    {see : AnnotationQuery → β → AnnotationQuery}
    (step : ∀ query, (Entries.keys query).Nodup → ∀ seen, (Entries.keys (see query seen)).Nodup)
    (nodup : (Entries.keys query).Nodup)
    (all : List β) :
    (Entries.keys (all.foldl see query)).Nodup := by
  induction all generalizing query with
  | nil => exact nodup
  | cons seen rest ih => exact ih (step query nodup seen)

variable {criteria : Criteria} {pending : Pending}

theorem nodup_see
    (nodup : (Entries.keys pending.annotations).Nodup)
    (span : Span) :
    (Entries.keys (see criteria pending span).annotations).Nodup :=
  nodup_foldl (fun _ h => nodup_seeTag h)
    (nodup_foldl (fun _ h => nodup_seeNote h) nodup span.annotations) span.tags

theorem mem_see_annotations
    (nodup : (Entries.keys pending.annotations).Nodup)
    (span : Span) (entry : String × String) :
    entry ∈ (see criteria pending span).annotations ↔
      entry ∈ pending.annotations ∧ ¬ Witnesses span entry := by
  have hnotes := nodup_foldl (fun _ h => nodup_seeNote h) nodup span.annotations
  simp only [see]
  rw [mem_foldl_seeTag hnotes, mem_foldl_seeNote nodup, Witnesses, not_or, and_assoc]

/-! ### What a run of spans leaves pending -/

/-- A run of spans leaves exactly the query entries that none of them witnesses. -/
theorem mem_foldl_see
    (nodup : (Entries.keys pending.annotations).Nodup)
    (spans : List Span) (entry : String × String) :
    entry ∈ (spans.foldl (see criteria) pending).annotations ↔
      entry ∈ pending.annotations ∧ ∀ span ∈ spans, ¬ Witnesses span entry := by
  induction spans generalizing pending with
  | nil => simp
  | cons span rest ih =>
      rw [List.foldl_cons, ih (nodup_see nodup span), mem_see_annotations nodup,
        List.forall_mem_cons, and_assoc]

theorem foldl_see_service (spans : List Span) :
    (spans.foldl (see criteria) pending).service = (pending.service && spans.isEmpty) := by
  induction spans generalizing pending with
  | nil => simp
  | cons span rest ih => simp [ih, see]

theorem foldl_see_spanName_eq_none_iff (spans : List Span) :
    (spans.foldl (see criteria) pending).spanName = none ↔
      ∀ name, pending.spanName = some name → ∃ span ∈ spans, span.name = some name := by
  induction spans generalizing pending with
  | nil => simp [Option.eq_none_iff_forall_ne_some]
  | cons span rest ih =>
      rw [List.foldl_cons, ih]
      refine forall_congr' fun name => ?_
      by_cases heq : pending.spanName = span.name
      · simp only [see, if_pos heq]
        grind
      · simp only [see, if_neg heq]
        grind

theorem foldl_see_duration (spans : List Span) :
    (spans.foldl (see criteria) pending).duration =
      (pending.duration && !spans.any criteria.durationFits) := by
  induction spans generalizing pending with
  | nil => simp
  | cons span rest ih => simp [ih, see, Bool.and_assoc]

end Pending

/-! ### The single pass -/

variable {criteria : Criteria}

theorem concerns_iff {span : Span} : criteria.concerns span = true ↔ criteria.OfService span := by
  unfold concerns OfService
  cases criteria.serviceName <;> simp

theorem exists_mem_filter_concerns {spans : List Span} {p : Span → Prop} :
    (∃ span ∈ spans.filter criteria.concerns, p span) ↔
      ∃ span ∈ spans, criteria.OfService span ∧ p span := by
  simp only [List.mem_filter, concerns_iff, and_assoc]

/-- An entry without a value is witnessed by an annotation or a tag with its key. -/
theorem witnesses_presence {span : Span} {key : String} :
    Witnesses span (key, "") ↔
      (∃ note ∈ span.annotations, note.value = key) ∨ ∃ value, (key, value) ∈ span.tags := by
  simp [Witnesses]

/-- An entry with a value is witnessed by a tag with its key and that value. -/
theorem witnesses_tagValue {span : Span} {key value : String} (hvalue : value ≠ "") :
    Witnesses span (key, value) ↔ (key, value) ∈ span.tags := by
  simp only [Witnesses, hvalue, false_and, false_or]
  constructor
  · rintro ⟨tag, hmem, rfl, rfl⟩
    exact hmem
  · exact fun hmem => ⟨_, hmem, rfl, rfl⟩

/-- Every entry of the query has a witness. -/
theorem Meets.exists_witness
    {spans : List Span} {entry : String × String}
    (meets : criteria.Meets spans)
    (hmem : entry ∈ criteria.annotationQuery) :
    ∃ span ∈ spans, criteria.OfService span ∧ Witnesses span entry := by
  obtain ⟨key, value⟩ := entry
  by_cases hvalue : value = ""
  · subst hvalue
    simpa only [witnesses_presence] using meets.presence key hmem
  · simpa only [witnesses_tagValue hvalue] using meets.tagValue key value hmem hvalue

/-- The bounds on the duration, with the criteria valid. -/
theorem durationFits_iff
    {least : Int}
    (hleast : criteria.minDuration = some least)
    {span : Span} :
    criteria.durationFits span = true ↔
      least ≤ span.duration.getD 0 ∧
        ∀ most, criteria.maxDuration = some most → span.duration.getD 0 ≤ most := by
  unfold durationFits
  rw [hleast]
  cases criteria.maxDuration <;> simp

/-- A duration is pending at the start exactly when a least one is asked for. -/
theorem IsValid.start_duration (valid : criteria.IsValid) :
    (Pending.start criteria).duration = criteria.minDuration.isSome := by
  cases hmost : criteria.maxDuration with
  | none => simp [Pending.start, hmost]
  | some most =>
      obtain ⟨least, hleast, -⟩ := valid.mostDuration most hmost
      simp [Pending.start, hleast]

/-- Nothing is pending after a run of spans exactly when each of the criteria has its witness among
them. -/
theorem isDone_foldl_see_iff (valid : criteria.IsValid) (spans : List Span) :
    (spans.foldl (Pending.see criteria) (Pending.start criteria)).isDone = true ↔
      (criteria.serviceName = none ∨ spans ≠ []) ∧
      (∀ name, criteria.spanName = some name → ∃ span ∈ spans, span.name = some name) ∧
      (∀ entry ∈ criteria.annotationQuery, ∃ span ∈ spans, Witnesses span entry) ∧
      ∀ least, criteria.minDuration = some least →
        ∃ span ∈ spans, criteria.durationFits span = true := by
  have hqueries : ∀ query : AnnotationQuery, query.isEmpty = true ↔ ∀ entry, entry ∉ query :=
    fun query => List.isEmpty_iff.trans List.eq_nil_iff_forall_not_mem
  have hservice : (Pending.start criteria).service = criteria.serviceName.isSome := rfl
  have hname : (Pending.start criteria).spanName = criteria.spanName := rfl
  have hquery : (Pending.start criteria).annotations = criteria.annotationQuery := rfl
  simp only [Pending.isDone, Bool.and_eq_true, Option.isNone_iff_eq_none, hqueries, and_assoc,
    Pending.foldl_see_service, Pending.foldl_see_spanName_eq_none_iff,
    Pending.mem_foldl_see (hquery ▸ valid.queryKeys), Pending.foldl_see_duration,
    valid.start_duration, hservice, hname, hquery]
  refine and_congr ?_ (and_congr_right fun _ => and_congr ?_ ?_)
  · cases criteria.serviceName <;> simp
  · simp
  · cases criteria.minDuration <;> simp

/-- The single pass decides valid criteria: a trace satisfies them exactly when its timestamp lies in the window and each of the other criteria has a witness among the spans of the
requested service. -/
theorem matchesTrace_iff_meets (valid : criteria.IsValid) (spans : List Span) :
    criteria.matchesTrace spans = true ↔ criteria.Meets spans := by
  rw [matchesTrace, Bool.and_eq_true, inWindow_traceTimestamp_iff, isDone_foldl_see_iff valid]
  simp only [exists_mem_filter_concerns]
  constructor
  · rintro ⟨hwindow, hservice, hname, hquery, hduration⟩
    refine ⟨hwindow, ?_, hname, fun key hmem => ?_, fun key value hmem hvalue => ?_,
      fun least hleast => ?_⟩
    · rcases hservice with hnone | hsome
      · -- every span is of the requested service, and one of them has the timestamp
        obtain ⟨span, hmem⟩ := exists_mem_of_isTraceTimestamp hwindow.choose_spec.1
        exact ⟨span, hmem, fun service h => by simp [hnone] at h⟩
      · obtain ⟨span, hmem⟩ := List.exists_mem_of_ne_nil _ hsome
        obtain ⟨hspan, hconcerns⟩ := List.mem_filter.mp hmem
        exact ⟨span, hspan, concerns_iff.mp hconcerns⟩
    · simpa only [witnesses_presence] using hquery _ hmem
    · simpa only [witnesses_tagValue hvalue] using hquery _ hmem
    · simpa only [durationFits_iff hleast] using hduration least hleast
  · intro meets
    refine ⟨meets.window, Or.inr ?_, meets.spanName, ?_, fun least hleast => ?_⟩
    · obtain ⟨span, hmem, hservice⟩ := meets.service
      exact List.ne_nil_of_mem (List.mem_filter.mpr ⟨hmem, concerns_iff.mpr hservice⟩)
    · exact fun entry hmem => meets.exists_witness hmem
    · simpa only [durationFits_iff hleast] using meets.duration least hleast

/-- What criteria ask of a single span that has a timestamp. -/
theorem meets_singleton_iff
    {span : Span} {t : Int}
    (starts : span.timestamp = some t)
    (hne : t ≠ 0) :
    criteria.Meets [span] ↔
      ((criteria.endTs - criteria.lookback) * 1000 ≤ t ∧ t ≤ criteria.endTs * 1000) ∧
      criteria.OfService span ∧
      (∀ name, criteria.spanName = some name → span.name = some name) ∧
      (∀ entry ∈ criteria.annotationQuery, Witnesses span entry) ∧
      ∀ least, criteria.minDuration = some least → least ≤ span.duration.getD 0 ∧
        ∀ most, criteria.maxDuration = some most → span.duration.getD 0 ≤ most := by
  have hstarted : span.startedAt = some t := Span.startedAt_eq_some_iff.mpr ⟨starts, hne⟩
  have htrace : traceTimestamp [span] = t := by
    cases hparent : span.parentId <;> simp [traceTimestamp, timestampFrom, hstarted, hparent]
  have htimestamp : ∀ u, IsTraceTimestamp [span] u ↔ u = t := fun u => by
    rw [isTraceTimestamp_iff, htrace]
    exact ⟨fun h => h.1.symm, fun h => ⟨h.symm, h ▸ hne⟩⟩
  constructor
  · intro meets
    obtain ⟨u, hu, hwindow⟩ := meets.window
    obtain ⟨_, hmem, hservice⟩ := meets.service
    obtain rfl := List.mem_singleton.mp hmem
    rw [htimestamp] at hu
    subst hu
    refine ⟨hwindow, hservice, fun name hname => ?_, ?_, fun least hleast => ?_⟩
    · obtain ⟨_, hmem, -, hspan⟩ := meets.spanName name hname
      exact List.mem_singleton.mp hmem ▸ hspan
    · rintro ⟨key, value⟩ hmem
      by_cases hvalue : value = ""
      · subst hvalue
        obtain ⟨_, hspan, -, hpresent⟩ := meets.presence key hmem
        exact List.mem_singleton.mp hspan ▸ witnesses_presence.mpr hpresent
      · obtain ⟨_, hspan, -, htag⟩ := meets.tagValue key value hmem hvalue
        exact List.mem_singleton.mp hspan ▸ (witnesses_tagValue hvalue).mpr htag
    · obtain ⟨_, hmem, -, hspan⟩ := meets.duration least hleast
      exact List.mem_singleton.mp hmem ▸ hspan
  · rintro ⟨hwindow, hservice, hname, hentries, hduration⟩
    have hmem : span ∈ [span] := List.mem_singleton_self span
    refine ⟨⟨t, (htimestamp t).mpr rfl, hwindow⟩, ⟨span, hmem, hservice⟩,
      fun name h => ⟨span, hmem, hservice, hname name h⟩,
      fun key h => ⟨span, hmem, hservice, witnesses_presence.mp (hentries _ h)⟩,
      fun key value h hvalue =>
        ⟨span, hmem, hservice, (witnesses_tagValue hvalue).mp (hentries _ h)⟩,
      fun least h => ⟨span, hmem, hservice, hduration least h⟩⟩

/-- **The single pass decides the criteria** that were read from a document, whatever the spans.  The
annotation query of a document is a mapping, which has each of its keys once. -/
theorem matchesTrace_iff_meets_of_read
    {data : Json}
    (distinct : ∀ members, data.member? "annotation_query" = some (.obj members) →
      (Entries.keys members).Nodup)
    (h : read data = .ok criteria)
    (spans : List Span) :
    criteria.matchesTrace spans = true ↔ criteria.Meets spans :=
  matchesTrace_iff_meets (isValid_of_read distinct h) spans

/-- Criteria for slow spans of one service with an error and a method. -/
def slowErrorOfWeb : Json :=
  .obj [
    ("service_name", .str "Web"),
    ("annotation_query", .obj [("error", .str ""), ("http.method", .str "GET")]),
    ("min_duration", .int 5),
    ("end_ts", .int 10), ("lookback", .int 4), ("limit", .int 1)]

/-- The two entries of the query are witnessed by different spans. -/
theorem meets_slowErrorOfWeb :
    ∃ criteria, read slowErrorOfWeb = .ok criteria ∧
      criteria.Meets [
        ⟨⟨0, 1⟩, "a", none, none, none, some 7000, some 9, some ⟨some "web", none, none, none⟩,
          none, [⟨7000, "error"⟩], [], none, none⟩,
        ⟨⟨0, 1⟩, "b", some "a", none, none, none, none, some ⟨some "web", none, none, none⟩,
          none, [], [("http.method", "GET")], none, none⟩] := by
  have hread : read slowErrorOfWeb = .ok _ := rfl
  refine ⟨_, hread, (matchesTrace_iff_meets_of_read ?_ hread _).mp (by decide)⟩
  intro members h
  cases h
  decide

end Criteria
end TraceArchive
