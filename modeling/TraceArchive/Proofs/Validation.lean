import TraceArchive.Criteria.Document
import TraceArchive.Proofs.Entries
import TraceArchive.Span.Document

/-!
# What reading a document guarantees

* `Checked.map_eq_ok_iff`, `Checked.seq_eq_ok_iff`: a record is read exactly when each of its
  members is.
* `Criteria.read_eq_ok_iff`, `Criteria.isValid_of_read`: what criteria are read from, and that they
  are valid.
* `Span.read_eq_ok`: what a span is read from.
* `Span.traceId_of_read`: where a document has no halves of its own, its text is the trace ID.
-/

set_option autoImplicit false

namespace TraceArchive

namespace Checked

universe u

variable {α β : Type u}

theorem map_eq_ok_iff {f : α → β} {x : Checked α} {b : β} :
    f <$> x = .ok b ↔ ∃ a, x = .ok a ∧ f a = b := by
  show apply (.ok f) x = .ok b ↔ _
  simp [apply_eq_ok_iff]

theorem seq_eq_ok_iff {f : Checked (α → β)} {x : Checked α} {b : β} :
    f <*> x = .ok b ↔ ∃ g a, f = .ok g ∧ x = .ok a ∧ g a = b :=
  apply_eq_ok_iff

/-- A list is read exactly when each of its parts is. -/
theorem all_eq_ok_iff {parts : List (Checked α)} {values : List α} :
    all parts = .ok values ↔ parts = values.map .ok := by
  induction parts generalizing values with
  | nil => cases values <;> simp [all]
  | cons part rest ih =>
      simp only [all, apply_eq_ok_iff, ih]
      cases values with
      | nil => simp
      | cons value values =>
          cases part with
          | ok first => simpa using And.comm
          | refused issues => simp

end Checked

namespace Document

theorem above_eq_ok {bound n m : Int} (h : above bound n = .ok m) : bound < m := by
  unfold above at h
  split at h
  · cases h
    assumption
  · cases h

theorem integerAbove_eq_ok {bound n : Int} {value : Json} (h : integerAbove bound value = .ok n) :
    bound < n := by
  obtain ⟨m, -, hm⟩ := Checked.andThen_eq_ok_iff.mp h
  exact above_eq_ok hm

theorem nullable_eq_ok {α : Type} {read : Json → Checked α} {value : Json} {a : α}
    (h : nullable read value = .ok (some a)) :
    read value = .ok a := by
  unfold nullable at h
  split at h
  · cases h
  · split at h
    · cases h
      assumption
    · cases h

/-- A name is read from a text that is not empty in lower case. -/
theorem loweredName_eq_ok_some_iff {value : Json} {name : String} :
    loweredName value = .ok (some name) ↔
      name ≠ "" ∧ ∃ raw, value = .str raw ∧ Text.lower raw = name := by
  cases value with
  | str raw =>
      simp only [loweredName, nullable, text, Checked.andThen, Option.map_some, Checked.ok.injEq,
        Option.filter_eq_some_iff, Option.some.injEq, Json.str.injEq, exists_eq_left',
        decide_eq_true_eq]
      exact And.comm
  | null => simp [loweredName, nullable, Checked.andThen]
  | _ => simp [loweredName, nullable, text, Checked.fail, Checked.andThen]

section Named

variable {V α : Type} {names : List String} {members : List (String × V)}

/-- What was read for a member is its default or comes from its value. -/
theorem optional_eq_ok {default a : α} {read : V → Checked α}
    (h : optional names default read members = .ok a) :
    a = default ∨ ∃ name value, find? names members = some (name, value) ∧ read value = .ok a := by
  unfold optional at h
  split at h
  · rename_i name value hfind
    exact Or.inr ⟨name, value, hfind, Checked.under_eq_ok_iff.mp h⟩
  · cases h
    exact Or.inl rfl

/-- What was read for a member that need not be there comes from its value, if it is anything. -/
theorem optional_eq_ok_some {a : α} {read : V → Checked (Option α)}
    (h : optional names none read members = .ok (some a)) :
    ∃ name value, find? names members = some (name, value) ∧ read value = .ok (some a) :=
  (optional_eq_ok h).resolve_left (Option.some_ne_none a)

theorem required_eq_ok {a : α} {read : V → Checked α}
    (h : required names read members = .ok a) :
    ∃ value, read value = .ok a := by
  unfold required at h
  split at h
  · exact ⟨_, Checked.under_eq_ok_iff.mp h⟩
  · cases h

/-- A member that is there is read, whether it has to be there or not. -/
theorem optional_of_find? {default a : α} {read : V → Checked α} {name : String} {value : V}
    (hfind : find? names members = some (name, value))
    (hread : read value = .ok a) :
    optional names default read members = .ok a := by
  simp [Document.optional, hfind, Checked.under_eq_ok_iff, hread]

theorem required_of_find? {a : α} {read : V → Checked α} {name : String} {value : V}
    (hfind : find? names members = some (name, value))
    (hread : read value = .ok a) :
    required names read members = .ok a := by
  simp [required, hfind, Checked.under_eq_ok_iff, hread]

/-- A member that goes by one name is looked up under that name. -/
theorem find?_singleton_eq_some_iff {name key : String} {value : V} :
    find? [name] members = some (key, value) ↔ key = name ∧ Entries.get? name members = some value := by
  simp only [find?, List.findSome?_cons, List.findSome?_nil]
  cases Entries.get? name members <;> simp [eq_comm]

end Named

/-- A dictionary of texts has the keys of the object. -/
theorem keys_textEntries {members : Members} {entries : Entries String String}
    (h : textEntries (.obj members) = .ok entries) :
    Entries.keys entries = Entries.keys members := by
  have hparts := Checked.all_eq_ok_iff.mp h
  induction members generalizing entries with
  | nil =>
      cases entries with
      | nil => rfl
      | cons entry rest => simp at hparts
  | cons member rest ih =>
      cases entries with
      | nil => simp at hparts
      | cons entry entries =>
          obtain ⟨hfirst, hrest⟩ := List.cons.inj hparts
          obtain ⟨value, -, hvalue⟩ :=
            Checked.map_eq_ok_iff.mp (Checked.under_eq_ok_iff.mp hfirst)
          have hkey : entry.1 = member.1 := by rw [← hvalue]
          have hkeys := ih (Checked.all_eq_ok_iff.mpr hrest) hrest
          simp only [Entries.keys, List.map_cons, hkey] at hkeys ⊢
          rw [hkeys]

end Document

namespace Argument

theorem integerAbove_eq_ok {bound n : Int} {argument : Argument}
    (h : integerAbove bound argument = .ok n) :
    bound < n := by
  obtain ⟨m, -, hm⟩ := Checked.andThen_eq_ok_iff.mp h
  exact Document.above_eq_ok hm

theorem nullable_eq_ok {α : Type} {read : Argument → Checked α} {argument : Argument} {a : α}
    (h : nullable read argument = .ok (some a)) :
    read argument = .ok a := by
  unfold nullable at h
  split at h
  · cases h
  · obtain ⟨b, hread, hsome⟩ := Checked.map_eq_ok_iff.mp h
    exact Option.some.inj hsome ▸ hread

end Argument

theorem Arguments.get?_ofMembers (name : String) (members : Members) :
    Entries.get? name (ofMembers members) = (Entries.get? name members).map .json := by
  induction members with
  | nil => rfl
  | cons member rest ih =>
      simp only [ofMembers, List.map_cons, Entries.get?]
      split
      · rfl
      · exact ih

namespace Criteria

open Document

/-- Criteria as reading leaves them: no key of the query is repeated, the bounds on the duration fit
together, and the numbers are positive. -/
structure IsValid (criteria : Criteria) : Prop where
  queryKeys : (Entries.keys criteria.annotationQuery).Nodup
  leastDuration : ∀ least, criteria.minDuration = some least → 0 < least
  mostDuration : ∀ most, criteria.maxDuration = some most →
    ∃ least, criteria.minDuration = some least ∧ least ≤ most
  endTs : 0 < criteria.endTs
  lookback : 0 < criteria.lookback
  limit : 0 < criteria.limit

/-- What a name asks for: nothing, or itself in lower case. -/
def askedName (blank : List String) (name : String) : Option String :=
  (some (Text.lower name)).filter fun lowered => !blank.contains lowered

theorem askedName_eq_some_iff {blank : List String} {raw name : String} :
    askedName blank raw = some name ↔ Text.lower raw = name ∧ name ∉ blank := by
  simp only [askedName, Option.filter_eq_some_iff, Option.some.injEq, Bool.not_eq_true',
    List.contains_eq_mem, decide_eq_false_iff_not]

theorem readName_str (blank : List String) (name : String) :
    readName blank (.json (.str name)) = .ok (askedName blank name) := by
  by_cases hblank : Text.lower name ∈ blank
  · simp [readName, normalizeName, askedName, Option.filter_some, hblank, Argument.nullable]
  · simp only [readName, normalizeName, askedName, Option.filter_some, List.contains_eq_mem, hblank]
    rfl

/-- A name is read from a JSON text in lower case, or from another value that is read as it. -/
theorem readName_eq_ok_some_iff {blank : List String} {argument : Argument} {name : String} :
    readName blank argument = .ok (some name) ↔
      (∃ raw, argument = .json (.str raw) ∧ askedName blank raw = some name) ∨
        ∃ value, argument = .foreign value ∧ value.text = .ok name := by
  cases argument with
  | json value =>
      cases value with
      | str raw => simp [readName_str]
      | null => simp [readName, normalizeName, Argument.nullable]
      | _ =>
          simp [readName, normalizeName, Argument.nullable, Checked.map_eq_ok_iff, Argument.text,
            text, Checked.fail]
  | foreign value =>
      simp [readName, normalizeName, Argument.nullable, Checked.map_eq_ok_iff, Argument.text]

theorem nodup_keys_readAnnotationQuery {value : Json} {query : AnnotationQuery}
    (distinct : ∀ members, value = .obj members → (Entries.keys members).Nodup)
    (h : readAnnotationQuery (.json value) = .ok query) :
    (Entries.keys query).Nodup := by
  cases value with
  | null =>
      cases h
      exact List.nodup_nil
  | str s =>
      cases h
      exact Entries.nodup_keys_ofList _
  | obj members =>
      rw [keys_textEntries h]
      exact distinct members rfl
  | _ => cases h

/-- Bounds on the duration are checked and left as they are. -/
theorem checkDurations_eq_ok_iff {criteria checked : Criteria} :
    checkDurations criteria = .ok checked ↔
      checked = criteria ∧ ∀ most, criteria.maxDuration = some most →
        ∃ least, criteria.minDuration = some least ∧ least ≤ most := by
  unfold checkDurations
  split
  · rename_i hmost
    simp [hmost, eq_comm]
  · rename_i hleast hmost
    simp [hleast, hmost, Checked.fail]
  · rename_i least most hleast hmost
    split
    · rename_i hlt
      simpa [hleast, hmost, Checked.fail] using fun _ => hlt
    · rename_i hle
      simpa [hleast, hmost, eq_comm] using fun _ => Int.not_lt.mp hle

/-- What the arguments make of each of the criteria. -/
structure IsRead (arguments : Arguments) (criteria : Criteria) : Prop where
  serviceName :
    optional ["service_name"] none (readName blankServiceNames) arguments = .ok criteria.serviceName
  spanName : optional ["span_name"] none (readName blankSpanNames) arguments = .ok criteria.spanName
  annotationQuery :
    optional ["annotation_query"] [] readAnnotationQuery arguments = .ok criteria.annotationQuery
  minDuration :
    optional ["min_duration"] none (Argument.nullable (Argument.integerAbove 0)) arguments =
      .ok criteria.minDuration
  maxDuration :
    optional ["max_duration"] none (Argument.nullable Argument.integer) arguments =
      .ok criteria.maxDuration
  endTs : required ["end_ts"] (Argument.integerAbove 0) arguments = .ok criteria.endTs
  lookback : required ["lookback"] (Argument.integerAbove 0) arguments = .ok criteria.lookback
  limit : required ["limit"] (Argument.integerAbove 0) arguments = .ok criteria.limit
  durations : ∀ most, criteria.maxDuration = some most →
    ∃ least, criteria.minDuration = some least ∧ least ≤ most

/-- Criteria are read from arguments, each from its own one. -/
theorem ofArguments_eq_ok_iff {arguments : Arguments} {criteria : Criteria} :
    ofArguments arguments = .ok criteria ↔ IsRead arguments criteria := by
  simp only [ofArguments, Checked.andThen_eq_ok_iff, checkDurations_eq_ok_iff,
    Checked.seq_eq_ok_iff, Checked.map_eq_ok_iff]
  constructor
  · rintro ⟨_, ⟨_, limit, ⟨_, lookback, ⟨_, endTs, ⟨_, most, ⟨_, least, ⟨_, query, ⟨_, name,
      ⟨service, hservice, rfl⟩, hname, rfl⟩, hquery, rfl⟩, hleast, rfl⟩, hmost, rfl⟩, hendTs,
      rfl⟩, hlookback, rfl⟩, hlimit, rfl⟩, rfl, hdurations⟩
    exact ⟨hservice, hname, hquery, hleast, hmost, hendTs, hlookback, hlimit, hdurations⟩
  · intro h
    exact ⟨_, ⟨_, _, ⟨_, _, ⟨_, _, ⟨_, _, ⟨_, _, ⟨_, _, ⟨_, _, ⟨_, h.serviceName, rfl⟩,
      h.spanName, rfl⟩, h.annotationQuery, rfl⟩, h.minDuration, rfl⟩, h.maxDuration, rfl⟩,
      h.endTs, rfl⟩, h.lookback, rfl⟩, h.limit, rfl⟩, rfl, h.durations⟩

/-- Criteria are read from an object, each from its own member. -/
theorem read_eq_ok_iff {data : Json} {criteria : Criteria} :
    read data = .ok criteria ↔
      ∃ members, data = .obj members ∧ IsRead (.ofMembers members) criteria := by
  cases data with
  | obj members => simp [read, record, ofArguments_eq_ok_iff]
  | _ => simp [read, record, Checked.fail]

/-- The numbers are positive, and the bounds on the duration fit together. -/
structure IsBounded (criteria : Criteria) : Prop where
  endTs : 0 < criteria.endTs
  lookback : 0 < criteria.lookback
  limit : 0 < criteria.limit
  leastDuration : ∀ least, criteria.minDuration = some least → 0 < least
  mostDuration : ∀ most, criteria.maxDuration = some most →
    ∃ least, criteria.minDuration = some least ∧ least ≤ most

theorem IsRead.isBounded {arguments : Arguments} {criteria : Criteria}
    (h : IsRead arguments criteria) :
    criteria.IsBounded where
  endTs := Argument.integerAbove_eq_ok (required_eq_ok h.endTs).choose_spec
  lookback := Argument.integerAbove_eq_ok (required_eq_ok h.lookback).choose_spec
  limit := Argument.integerAbove_eq_ok (required_eq_ok h.limit).choose_spec
  leastDuration := by
    intro least hleast
    obtain ⟨_, argument, -, hread⟩ := optional_eq_ok_some (hleast ▸ h.minDuration)
    exact Argument.integerAbove_eq_ok (Argument.nullable_eq_ok hread)
  mostDuration := h.durations

theorem isBounded_of_read {data : Json} {criteria : Criteria} (h : read data = .ok criteria) :
    criteria.IsBounded := by
  obtain ⟨members, -, isRead⟩ := read_eq_ok_iff.mp h
  exact isRead.isBounded

/-- The query comes from its member, if there is one. -/
theorem annotationQuery_of_member {members : Members} {criteria : Criteria}
    (h : read (.obj members) = .ok criteria) :
    (Entries.get? "annotation_query" members = none ∧ criteria.annotationQuery = []) ∨
      ∃ value, Entries.get? "annotation_query" members = some value ∧
        readAnnotationQuery (.json value) = .ok criteria.annotationQuery := by
  obtain ⟨_, ⟨⟩, isRead⟩ := read_eq_ok_iff.mp h
  have hquery := isRead.annotationQuery
  simp only [Document.optional, find?, List.findSome?_cons, List.findSome?_nil,
    Arguments.get?_ofMembers] at hquery
  cases hget : Entries.get? "annotation_query" members with
  | none =>
      rw [hget] at hquery
      exact Or.inl ⟨rfl, (Checked.ok.inj hquery).symm⟩
  | some value =>
      rw [hget] at hquery
      exact Or.inr ⟨value, rfl, Checked.under_eq_ok_iff.mp hquery⟩

/-- Criteria that were read are valid, since the names of an object are distinct. -/
theorem isValid_of_read {data : Json} {criteria : Criteria}
    (distinct : ∀ members, data.member? "annotation_query" = some (.obj members) →
      (Entries.keys members).Nodup)
    (h : read data = .ok criteria) :
    criteria.IsValid := by
  have hbounded := isBounded_of_read h
  refine ⟨?_, hbounded.leastDuration, hbounded.mostDuration, hbounded.endTs, hbounded.lookback,
    hbounded.limit⟩
  obtain ⟨members, rfl, -⟩ := read_eq_ok_iff.mp h
  rcases annotationQuery_of_member h with ⟨-, hnil⟩ | ⟨value, hget, hread⟩
  · rw [hnil]
    exact List.nodup_nil
  · exact nodup_keys_readAnnotationQuery (fun inner hinner => distinct inner (hinner ▸ hget)) hread

end Criteria

namespace Span

open Document

/-- The members with the halves added when the document has only the text of its trace ID. -/
theorem splitTraceId_eq_ok {members all : Members}
    (hlow : Entries.get? "trace_id" members = none)
    (hhigh : Entries.get? "trace_id_high" members = none)
    (h : splitTraceId members = .ok all) :
    (Entries.get? "traceId" members = none ∧ all = members) ∨
      ∃ text id, Entries.get? "traceId" members = some (.str text) ∧
        TraceId.parse? text = some id ∧
        all = members ++ [("trace_id_high", .int id.high)] ++ [("trace_id", .int id.low)] := by
  unfold splitTraceId at h
  split at h
  · rename_i hnone
    cases h
    exact Or.inl ⟨hnone, rfl⟩
  · rename_i value hvalue
    right
    cases value with
    | str text =>
        dsimp only at h
        split at h
        · cases h
        · rename_i id hparse
          refine ⟨text, id, hvalue, hparse, ?_⟩
          cases h
          simp [hhigh, Entries.get?_append, hlow, Entries.get?]
    | _ => cases h

/-- Splitting the trace ID adds no members but its halves. -/
theorem get?_splitTraceId {members all : Members} {name : String}
    (h : splitTraceId members = .ok all)
    (hhigh : name ≠ "trace_id_high")
    (hlow : name ≠ "trace_id") :
    Entries.get? name all = Entries.get? name members := by
  have hskip : ∀ {half : String} {n : Int} {into : Members}, name ≠ half →
      Entries.get? name (into ++ [(half, .int n)]) = Entries.get? name into := by
    intro half n into hne
    simp [Entries.get?_append, Entries.get?, Ne.symm hne]
  unfold splitTraceId at h
  split at h
  · cases h
    rfl
  · dsimp only at h
    split at h
    · cases h
    · cases h
      split
      · split
        · rfl
        · exact hskip hhigh
      · rw [hskip hlow]
        split
        · rfl
        · exact hskip hhigh

theorem find?_splitTraceId {members all : Members} {names : List String}
    (h : splitTraceId members = .ok all)
    (hnames : ∀ name ∈ names, name ≠ "trace_id_high" ∧ name ≠ "trace_id") :
    find? names all = find? names members := by
  induction names with
  | nil => rfl
  | cons name rest ih =>
      obtain ⟨⟨hhigh, hlow⟩, hrest⟩ := List.forall_mem_cons.mp hnames
      have ih := ih hrest
      unfold find? at ih ⊢
      rw [List.findSome?_cons, List.findSome?_cons, get?_splitTraceId h hhigh hlow, ih]

/-- What the members of a document, halves of the trace ID among them, make of each part of a span. -/
structure IsRead (members : Members) (span : Span) : Prop where
  high : optional ["trace_id_high"] 0 integer members = .ok span.traceId.high
  low : required ["trace_id"] integer members = .ok span.traceId.low
  id : required ["id"] text members = .ok span.id
  parentId : optional ["parentId", "parent_id"] none (nullable text) members = .ok span.parentId
  name : optional ["name"] none (nullable text) members = .ok span.name
  kind : optional ["kind"] none (nullable SpanKind.read) members = .ok span.kind
  timestamp : optional ["timestamp"] none (nullable integer) members = .ok span.timestamp
  duration : optional ["duration"] none (nullable integer) members = .ok span.duration
  localEndpoint : optional ["localEndpoint", "local_endpoint"] none (nullable Endpoint.read) members =
    .ok span.localEndpoint
  remoteEndpoint :
    optional ["remoteEndpoint", "remote_endpoint"] none (nullable Endpoint.read) members =
      .ok span.remoteEndpoint
  annotations : optional ["annotations"] [] (sequence Annotation.read) members = .ok span.annotations
  tags : optional ["tags"] [] readTags members = .ok span.tags
  debug : optional ["debug"] none (nullable flag) members = .ok span.debug
  shared : optional ["shared"] none (nullable flag) members = .ok span.shared

/-- A span is read from an object, each part from its own member once the trace ID has been split. -/
theorem read_eq_ok {data : Json} {span : Span} (h : read data = .ok span) :
    ∃ members all, data = .obj members ∧ splitTraceId members = .ok all ∧ IsRead all span := by
  cases data with
  | obj members =>
      obtain ⟨all, hall, hspan⟩ := Checked.andThen_eq_ok_iff.mp h
      simp only [Checked.seq_eq_ok_iff, Checked.map_eq_ok_iff] at hspan
      obtain ⟨_, shared, ⟨_, debug, ⟨_, tags, ⟨_, notes, ⟨_, remote, ⟨_, «local», ⟨_, duration, ⟨_,
        timestamp, ⟨_, kind, ⟨_, name, ⟨_, parent, ⟨_, id, ⟨_, low, ⟨high, hhigh, rfl⟩, hlow, rfl⟩,
        hid, rfl⟩, hparent, rfl⟩, hname, rfl⟩, hkind, rfl⟩, htimestamp, rfl⟩, hduration, rfl⟩,
        hlocal, rfl⟩, hremote, rfl⟩, hnotes, rfl⟩, htags, rfl⟩, hdebug, rfl⟩, hshared, rfl⟩ := hspan
      exact ⟨members, all, rfl, hall, hhigh, hlow, hid, hparent, hname, hkind, htimestamp, hduration,
        hlocal, hremote, hnotes, htags, hdebug, hshared⟩
  | _ => cases h

/-- Where a document has no halves of its own, its text is the trace ID. -/
theorem traceId_of_read {members : Members} {span : Span}
    (hlow : Entries.get? "trace_id" members = none)
    (hhigh : Entries.get? "trace_id_high" members = none)
    (h : read (.obj members) = .ok span) :
    ∃ text, Entries.get? "traceId" members = some (.str text) ∧
      TraceId.parse? text = some span.traceId := by
  obtain ⟨_, all, ⟨⟩, hall, isRead⟩ := read_eq_ok h
  have hreadHigh := isRead.high
  have hreadLow := isRead.low
  rcases splitTraceId_eq_ok hlow hhigh hall with ⟨-, rfl⟩ | ⟨text, split, htext, hparse, rfl⟩
  · simp [required, find?, hlow, Checked.under, Checked.fail] at hreadLow
  · have hhighEq : split.high = span.traceId.high := by
      simpa [Document.optional, find?, Entries.get?_append, hhigh, Entries.get?, integer, Checked.under]
        using hreadHigh
    have hlowEq : split.low = span.traceId.low := by
      simpa [required, find?, Entries.get?_append, hlow, Entries.get?, integer, Checked.under]
        using hreadLow
    refine ⟨text, htext, hparse.trans ?_⟩
    show some (TraceId.mk split.high split.low) = some ⟨span.traceId.high, span.traceId.low⟩
    rw [hhighEq, hlowEq]

end Span
end TraceArchive
