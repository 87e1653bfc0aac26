import TraceArchive.Proofs.Lowering
import TraceArchive.Proofs.Validation

/-!
# The normal form of criteria

Reading criteria lower-cases names, turns a textual query into a dictionary and numbers of all kinds
into integers.  What comes out is in a normal form that reading leaves as it is: written down as a
document with a member for each of the criteria, it is read as the same criteria again.

Names that are passed as other values than JSON texts are the exception.  They are read as they are,
so that what comes out is in normal form only if they were.

* `Criteria.IsNormal`: the normal form.
* `Criteria.normalized`: the criteria that others are read as when they are written down.
* `read_toDocument`: criteria in normal form are read as they were written.
* `isNormal_of_read`: criteria that were read from a document are in normal form.
* `ofArguments_normalForm`: when criteria that were read from arguments are.
-/

set_option autoImplicit false

namespace TraceArchive

namespace Criteria

open Document

/-- Criteria in normal form: names are neither empty nor with capital letters, the span name is not
the one that asks for nothing, the numbers are positive, and the bounds on the duration fit together. -/
structure IsNormal (criteria : Criteria) : Prop where
  serviceName : ∀ name, criteria.serviceName = some name → name ≠ "" ∧ Text.lower name = name
  spanName : ∀ name, criteria.spanName = some name →
    name ≠ "" ∧ Text.lower name = name ∧ name ≠ "all"
  endTs : 1 ≤ criteria.endTs
  lookback : 1 ≤ criteria.lookback
  limit : 1 ≤ criteria.limit
  minDuration : ∀ least, criteria.minDuration = some least → 1 ≤ least
  maxDuration : ∀ most, criteria.maxDuration = some most →
    ∃ least, criteria.minDuration = some least ∧ least ≤ most

variable {criteria : Criteria} {arguments : Arguments}

/-- A name in normal form: it is in lower case, and none of those that ask for nothing. -/
def IsNormalName (blank : List String) (name : String) : Prop :=
  Text.lower name = name ∧ name ∉ blank

/-- Reading the criteria again asks for the names in normal form. -/
def normalized (criteria : Criteria) : Criteria :=
  { criteria with
    serviceName := criteria.serviceName.bind (askedName blankServiceNames)
    spanName := criteria.spanName.bind (askedName blankSpanNames) }

theorem isNormal_iff :
    criteria.IsNormal ↔ criteria.IsBounded ∧
      (∀ name, criteria.serviceName = some name → IsNormalName blankServiceNames name) ∧
      (∀ name, criteria.spanName = some name → IsNormalName blankSpanNames name) := by
  simp only [IsNormalName, blankServiceNames, blankSpanNames, List.mem_cons, List.not_mem_nil,
    or_false, not_or]
  constructor
  · intro h
    refine ⟨⟨h.endTs, h.lookback, h.limit, h.minDuration, h.maxDuration⟩, ?_, ?_⟩
    · exact fun name hname => (h.serviceName name hname).symm
    · intro name hname
      obtain ⟨hempty, hlower, hall⟩ := h.spanName name hname
      exact ⟨hlower, hempty, hall⟩
  · rintro ⟨hbounded, hservice, hspan⟩
    refine ⟨fun name hname => (hservice name hname).symm, fun name hname => ?_, hbounded.endTs,
      hbounded.lookback, hbounded.limit, hbounded.leastDuration, hbounded.mostDuration⟩
    obtain ⟨hlower, hempty, hall⟩ := hspan name hname
    exact ⟨hempty, hlower, hall⟩

/-- Just the names in normal form stay as they are when they are read again. -/
theorem bind_askedName_eq_self_iff {blank : List String} {name : Option String} :
    name.bind (askedName blank) = name ↔ ∀ given, name = some given → IsNormalName blank given := by
  cases name with
  | none => simp
  | some given => simp [askedName_eq_some_iff, IsNormalName]

/-- Just the criteria in normal form stay as they are when they are read again. -/
theorem normalized_eq_self_iff (hbounded : criteria.IsBounded) :
    criteria.normalized = criteria ↔ criteria.IsNormal := by
  rw [isNormal_iff, ← bind_askedName_eq_self_iff, ← bind_askedName_eq_self_iff]
  constructor
  · intro h
    exact ⟨hbounded, congrArg Criteria.serviceName h, congrArg Criteria.spanName h⟩
  · rintro ⟨-, hservice, hspan⟩
    rw [normalized, hservice, hspan]

/-! ### What reading gives -/

/-- The names that are passed as other values than JSON texts are in normal form already. -/
structure ArriveNormal (arguments : Arguments) : Prop where
  serviceName : ∀ value name, Entries.get? "service_name" arguments = some (.foreign value) →
    value.text = .ok name → IsNormalName blankServiceNames name
  spanName : ∀ value name, Entries.get? "span_name" arguments = some (.foreign value) →
    value.text = .ok name → IsNormalName blankSpanNames name

theorem isNormalName_of_askedName
    {blank : List String} {raw name : String}
    (h : askedName blank raw = some name) :
    IsNormalName blank name := by
  obtain ⟨rfl, hblank⟩ := askedName_eq_some_iff.mp h
  exact ⟨Text.lower_lower raw, hblank⟩

/-- A name that was read is in normal form unless it was passed as no JSON text. -/
theorem isNormalName_iff_of_read
    {key : String} {blank : List String} {found : Option String}
    (h : optional [key] none (readName blank) arguments = .ok found) :
    (∀ name, found = some name → IsNormalName blank name) ↔
      ∀ value name, Entries.get? key arguments = some (.foreign value) → value.text = .ok name →
        IsNormalName blank name := by
  constructor
  · intro hnormal value name hget htext
    have hread : readName blank (.foreign value) = .ok (some name) :=
      readName_eq_ok_some_iff.mpr (Or.inr ⟨value, rfl, htext⟩)
    have hfound : optional [key] none (readName blank) arguments = .ok (some name) :=
      optional_of_find? (find?_singleton_eq_some_iff.mpr ⟨rfl, hget⟩) hread
    exact hnormal name (Checked.ok.inj (h.symm.trans hfound))
  · rintro hforeign name rfl
    obtain ⟨_, argument, hfind, hread⟩ := optional_eq_ok_some h
    obtain ⟨-, hget⟩ := find?_singleton_eq_some_iff.mp hfind
    rcases readName_eq_ok_some_iff.mp hread with ⟨raw, -, hasked⟩ | ⟨value, rfl, htext⟩
    · exact isNormalName_of_askedName hasked
    · exact hforeign value name hget htext

/-- Criteria that were read are in normal form just when their names were, where these were passed
as no JSON texts. -/
theorem IsRead.isNormal_iff (h : IsRead arguments criteria) :
    criteria.IsNormal ↔ ArriveNormal arguments := by
  rw [Criteria.isNormal_iff, isNormalName_iff_of_read h.serviceName,
    isNormalName_iff_of_read h.spanName]
  exact ⟨fun ⟨_, hservice, hspan⟩ => ⟨hservice, hspan⟩,
    fun arrive => ⟨h.isBounded, arrive.serviceName, arrive.spanName⟩⟩

/-- A value as it stands in a document, where nothing is null. -/
def orNull {α : Type} (write : α → Json) : Option α → Json
  | none => .null
  | some a => write a

/-- Criteria as a document, with a member for each of them. -/
def toDocument (criteria : Criteria) : Json :=
  .obj [
    ("service_name", orNull .str criteria.serviceName),
    ("span_name", orNull .str criteria.spanName),
    ("annotation_query", .obj (criteria.annotationQuery.map fun entry => (entry.1, .str entry.2))),
    ("min_duration", orNull .int criteria.minDuration),
    ("max_duration", orNull .int criteria.maxDuration),
    ("end_ts", .int criteria.endTs),
    ("lookback", .int criteria.lookback),
    ("limit", .int criteria.limit)]

/-- A query that was written as an object is read as it was, in the same order. -/
theorem readAnnotationQuery_obj (query : AnnotationQuery) :
    readAnnotationQuery (.json (.obj (query.map fun entry => (entry.1, .str entry.2)))) =
      .ok query := by
  show textEntries (.obj _) = .ok query
  rw [textEntries, Checked.all_eq_ok_iff, List.map_map]
  exact List.map_congr_left fun _ _ => rfl

theorem integerAbove_int {bound n : Int} (h : bound < n) : integerAbove bound (.int n) = .ok n := by
  simp [integerAbove, integer, Checked.andThen, above, h]

/-- A name that was written is read as what it asks for. -/
theorem readName_orNull (blank : List String) (name : Option String) :
    readName blank (.json (orNull .str name)) = .ok (name.bind (askedName blank)) := by
  cases name with
  | none => rfl
  | some given => exact readName_str blank given

theorem nullable_orNull_int
    {read : Argument → Checked Int} {number : Option Int}
    (h : ∀ n, number = some n → read (.json (.int n)) = .ok n) :
    Argument.nullable read (.json (orNull .int number)) = .ok number := by
  cases number with
  | none => rfl
  | some n => exact Checked.map_eq_ok_iff.mpr ⟨n, h n rfl, rfl⟩

/-- Criteria are read with their names in normal form, and are as they were written otherwise. -/
theorem read_toDocument_eq_normalized (hbounded : criteria.IsBounded) :
    read criteria.toDocument = .ok criteria.normalized := by
  refine read_eq_ok_iff.mpr ⟨_, rfl, ?_⟩
  exact {
    serviceName := optional_of_find? rfl (readName_orNull blankServiceNames criteria.serviceName)
    spanName := optional_of_find? rfl (readName_orNull blankSpanNames criteria.spanName)
    annotationQuery := optional_of_find? rfl (readAnnotationQuery_obj criteria.annotationQuery)
    minDuration := optional_of_find? rfl
      (nullable_orNull_int fun least hleast => integerAbove_int (hbounded.leastDuration least hleast))
    maxDuration := optional_of_find? rfl (nullable_orNull_int fun _ _ => rfl)
    endTs := required_of_find? rfl (integerAbove_int hbounded.endTs)
    lookback := required_of_find? rfl (integerAbove_int hbounded.lookback)
    limit := required_of_find? rfl (integerAbove_int hbounded.limit)
    durations := hbounded.mostDuration }

/-- Criteria in normal form are read as they were written. -/
theorem read_toDocument (normal : criteria.IsNormal) : read criteria.toDocument = .ok criteria := by
  have hbounded := (isNormal_iff.mp normal).1
  rw [read_toDocument_eq_normalized hbounded, (normalized_eq_self_iff hbounded).mpr normal]

/-- **When criteria are read in a normal form.**  Their numbers are positive and their bounds fit
together, whatever the arguments are.  Their names are in normal form just when those were that are
passed as other values than JSON texts.  Reading the criteria again brings the names into normal form
and changes nothing else, the order of the query included; so it changes nothing at all just when the
criteria are in normal form. -/
theorem ofArguments_normalForm (h : ofArguments arguments = .ok criteria) :
    criteria.IsBounded ∧
      (criteria.IsNormal ↔ ArriveNormal arguments) ∧
      read criteria.toDocument = .ok criteria.normalized ∧
      (read criteria.toDocument = .ok criteria ↔ criteria.IsNormal) := by
  have isRead := ofArguments_eq_ok_iff.mp h
  have hagain := read_toDocument_eq_normalized isRead.isBounded
  refine ⟨isRead.isBounded, isRead.isNormal_iff, hagain, ?_⟩
  rw [hagain, Checked.ok.injEq]
  exact normalized_eq_self_iff isRead.isBounded

/-- A service name given as octets, beside a span name with capital letters, a textual query and
numbers that are texts. -/
def octetArguments : Arguments := [
  ("service_name", .foreign (.octets "FrontEnd".toUTF8)),
  ("span_name", .json (.str "GET ΟΔΟΣ")),
  ("annotation_query", .json (.str "error and http.method=GET")),
  ("min_duration", .json (.str " 1_00.0")), ("max_duration", .json (.int 100)),
  ("end_ts", .json (.int 10)), ("lookback", .json (.bool true)), ("limit", .json (.str "+5"))]

/-- The service name keeps its capital letters, and loses them when the criteria are read again. -/
theorem not_isNormal_octetArguments :
    ∃ criteria, ofArguments octetArguments = .ok criteria ∧ criteria.serviceName = some "FrontEnd" ∧
      criteria.spanName = some "get οδος" ∧ ¬ criteria.IsNormal ∧
      ∃ again, read criteria.toDocument = .ok again ∧ again.serviceName = some "frontend" := by
  have htext : (Foreign.octets "FrontEnd".toUTF8).text = .ok "FrontEnd" :=
    congrArg Foreign.text (Foreign.octets_toUTF8 "FrontEnd")
  have hread : ofArguments octetArguments =
      .ok ⟨some "FrontEnd", askedName blankSpanNames "GET ΟΔΟΣ",
        AnnotationQuery.parse "error and http.method=GET", some 100, some 100, 10, 1, 5⟩ := by
    have hservice : readName blankServiceNames (.foreign (.octets "FrontEnd".toUTF8)) =
        .ok (some "FrontEnd") := readName_eq_ok_some_iff.mpr (Or.inr ⟨_, rfl, htext⟩)
    have hspan : find? ["span_name"] octetArguments =
        some ("span_name", .json (.str "GET ΟΔΟΣ")) := rfl
    refine ofArguments_eq_ok_iff.mpr ⟨?_, ?_, rfl, rfl, rfl, rfl, rfl, rfl, ?_⟩
    · exact optional_of_find? rfl hservice
    · dsimp only
      exact optional_of_find? hspan (readName_str blankSpanNames _)
    · rintro most ⟨⟩
      exact ⟨100, rfl, by decide⟩
  obtain ⟨-, hnormal, hagain, -⟩ := ofArguments_normalForm hread
  refine ⟨_, hread, rfl, by decide +kernel, fun normal => ?_, _, hagain, by decide +kernel⟩
  have hlower := ((hnormal.mp normal).serviceName _ _ rfl htext).1
  exact absurd hlower (by decide +kernel)

end Criteria
end TraceArchive
