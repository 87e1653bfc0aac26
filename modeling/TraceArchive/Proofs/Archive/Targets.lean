import TraceArchive.Proofs.Archive.Documents
import TraceArchive.Proofs.Monadic
import TraceArchive.Proofs.Partition

/-!
# Which partitions a search is sent to

When neither the index nor the mark between the parts of a date holds a comma or a character of
patterns, the backend takes the entries of a list of partitions as they are meant.

* `fits_eq_entryMatches`: what the pattern of an entry stands for.
* `isTarget_ofDate_iff`, `isTarget_of_inWindow`: the entries of a range reach the partitions of its
  days.
* `isTarget_allPattern_iff`: the pattern of all span partitions reaches these and no others.
-/

set_option autoImplicit false

namespace TraceArchive

namespace Text

/-- A text holds no comma and no character that patterns give a meaning to. -/
def IsLiteral (text : List Char) : Prop :=
  ∀ c ∈ text, c ∉ [',', '*', '?', '[']

instance (text : List Char) : Decidable (IsLiteral text) :=
  decidable_of_iff (text.all fun c => c != ',' && c != '*' && c != '?' && c != '[')
    (by simp [IsLiteral, and_assoc])

theorem IsLiteral.append {a b : List Char} (ha : IsLiteral a) (hb : IsLiteral b) :
    IsLiteral (a ++ b) := by
  intro c hmem
  rcases List.mem_append.mp hmem with hmem | hmem
  · exact ha c hmem
  · exact hb c hmem

theorem isLiteral_decimal (width n : Nat) : IsLiteral (decimal width n) := by
  intro c hmem hspecial
  have hdigit := isDigit_of_mem_decimal hmem
  simp only [List.mem_cons, List.not_mem_nil, or_false] at hspecial
  rcases hspecial with rfl | rfl | rfl | rfl <;> exact absurd hdigit (by decide)

end Text

namespace Archive
namespace Pattern

theorem parts_append
    {text : List Char}
    (hliteral : Text.IsLiteral text)
    (rest : List Char) :
    parts (text ++ rest) = text.map .char ++ parts rest := by
  induction text with
  | nil => rfl
  | cons c text ih =>
      have hc := hliteral c List.mem_cons_self
      have htext : Text.IsLiteral text := fun d hmem => hliteral d (List.mem_cons_of_mem c hmem)
      simp only [List.mem_cons, List.not_mem_nil, or_false, not_or] at hc
      rw [List.cons_append, parts, ih htext]
      · rfl
      · exact hc.2.1
      · exact hc.2.2.1
      · exact fun _ heq => absurd heq hc.2.2.2
      · exact hc.2.2.2

theorem fits_append
    (text : List Char)
    (rest : List Part)
    (name : List Char) :
    fits (text.map .char ++ rest) name = true ↔
      ∃ tail, name = text ++ tail ∧ fits rest tail = true := by
  induction text generalizing name with
  | nil => simp
  | cons c text ih =>
      cases name with
      | nil => simp [fits]
      | cons d name =>
          simp only [List.map_cons, List.cons_append, fits, List.head?_cons, Option.some.injEq,
            List.tail_cons, Bool.and_eq_true, decide_eq_true_iff, ih, List.cons.injEq]
          constructor
          · rintro ⟨rfl, tail, rfl, hfits⟩
            exact ⟨tail, ⟨rfl, rfl⟩, hfits⟩
          · rintro ⟨tail, ⟨rfl, rfl⟩, hfits⟩
            exact ⟨rfl, tail, rfl, hfits⟩

theorem fits_literal_iff
    {entry : List Char}
    (hliteral : Text.IsLiteral entry)
    (name : List Char) :
    fits (parts entry) name = true ↔ name = entry := by
  have hparts := parts_append hliteral []
  rw [List.append_nil] at hparts
  rw [hparts, fits_append]
  constructor
  · rintro ⟨tail, rfl, htail⟩
    rw [parts, fits, List.isEmpty_iff] at htail
    rw [htail, List.append_nil]
  · rintro rfl
    refine ⟨[], (List.append_nil _).symm, ?_⟩
    rw [parts]
    rfl

theorem fits_start_iff
    {start : List Char}
    (hliteral : Text.IsLiteral start)
    (name : List Char) :
    fits (parts (start ++ ['*'])) name = true ↔ start <+: name := by
  have hmany : ∀ tail, fits (parts ['*']) tail = true := by
    intro tail
    rw [parts, parts, fits, List.any_eq_true]
    exact ⟨tail.length, List.mem_range.mpr (Nat.lt_succ_self _), by simp [fits]⟩
  rw [parts_append hliteral, fits_append]
  constructor
  · rintro ⟨tail, rfl, -⟩
    exact List.prefix_append start tail
  · rintro ⟨tail, rfl⟩
    exact ⟨tail, rfl, hmany tail⟩

end Pattern

end Archive

namespace Naming

/-- The index and the mark between the parts of a date are taken literally. -/
structure IsLiteral (naming : Naming) : Prop where
  index : Text.IsLiteral naming.index.toList
  separator : Text.IsLiteral naming.separator.toList

variable {naming : Naming} {docType : String}

theorem isLiteral_stem
    (hnaming : naming.IsLiteral)
    (hdocType : Text.IsLiteral docType.toList) :
    Text.IsLiteral (naming.stem docType).toList := by
  have hdash : Text.IsLiteral "-".toList := by decide
  rw [stem, String.toList_append, String.toList_append, String.toList_append]
  exact ((hnaming.index.append hdash).append hdocType).append hdash

theorem isLiteral_ofDate
    (hnaming : naming.IsLiteral)
    (hdocType : Text.IsLiteral docType.toList)
    (date : Date) :
    Text.IsLiteral (naming.ofDate docType date).toList := by
  rw [toList_ofDate]
  exact (isLiteral_stem hnaming hdocType).append ((Text.isLiteral_decimal _ _).append
    (hnaming.separator.append ((Text.isLiteral_decimal _ _).append
      (hnaming.separator.append (Text.isLiteral_decimal _ _)))))

end Naming

namespace Archive

open Naming

variable {naming : Naming} {docType : String}

/-! ### Entries -/

theorem fits_eq_entryMatches
    {entry : String}
    (hliteral : Text.IsLiteral entry.toList)
    (name : String) :
    Pattern.fits (Pattern.parts entry.toList) name.toList = entryMatches entry name := by
  have hlast : entry.toList.getLast? ≠ some '*' := by
    intro h
    exact hliteral '*' (List.mem_of_getLast? h) (by decide)
  rw [Bool.eq_iff_iff, Pattern.fits_literal_iff hliteral, entryMatches, if_neg hlast,
    decide_eq_true_iff, String.toList_inj]
  exact eq_comm

theorem fits_pattern_eq_entryMatches
    {start : String}
    (hliteral : Text.IsLiteral start.toList)
    (name : String) :
    Pattern.fits (Pattern.parts (start ++ "*").toList) name.toList =
      entryMatches (start ++ "*") name := by
  rw [Bool.eq_iff_iff, entryMatches_pattern, String.toList_append]
  exact Pattern.fits_start_iff hliteral name.toList

/-- The entry of a block is a name, or a start and an asterisk. -/
theorem ofBlock_form
    (hnaming : naming.IsLiteral)
    (hdocType : Text.IsLiteral docType.toList)
    (block : Block) :
    Text.IsLiteral (naming.ofBlock docType block).toList ∨
      ∃ start, naming.ofBlock docType block = start ++ "*" ∧ Text.IsLiteral start.toList := by
  have hstem := isLiteral_stem hnaming hdocType
  cases block with
  | day date => exact Or.inl (isLiteral_ofDate hnaming hdocType date)
  | month year month =>
      refine Or.inr ⟨_, rfl, ?_⟩
      simp only [padded, String.toList_append, String.toList_ofList]
      exact (((hstem.append (Text.isLiteral_decimal _ _)).append hnaming.separator).append
        (Text.isLiteral_decimal _ _)).append hnaming.separator
  | year year =>
      refine Or.inr ⟨_, rfl, ?_⟩
      simp only [padded, String.toList_append, String.toList_ofList]
      exact (hstem.append (Text.isLiteral_decimal _ _)).append hnaming.separator

/-- The entry of a block is taken as it is meant. -/
theorem fits_ofBlock
    (hnaming : naming.IsLiteral)
    (hdocType : Text.IsLiteral docType.toList)
    (block : Block) (name : String) :
    Pattern.fits (Pattern.parts (naming.ofBlock docType block).toList) name.toList =
      entryMatches (naming.ofBlock docType block) name := by
  rcases ofBlock_form hnaming hdocType block with hliteral | ⟨start, hentry, hliteral⟩
  · exact fits_eq_entryMatches hliteral name
  · rw [hentry]
    exact fits_pattern_eq_entryMatches hliteral name

theorem comma_notMem_ofBlock
    (hnaming : naming.IsLiteral)
    (hdocType : Text.IsLiteral docType.toList)
    (block : Block) :
    ',' ∉ (naming.ofBlock docType block).toList := by
  rcases ofBlock_form hnaming hdocType block with hliteral | ⟨start, hentry, hliteral⟩
  · exact fun hmem => hliteral ',' hmem (by decide)
  · rw [hentry, String.toList_append, List.mem_append]
    rintro (hmem | hmem)
    · exact hliteral ',' hmem (by decide)
    · exact absurd hmem (by decide)

/-- What the entry of a block stands for has a name of its type. -/
theorem stem_prefix_of_entryMatches
    {block : Block} {name : String}
    (h : entryMatches (naming.ofBlock docType block) name = true) :
    (naming.stem docType).toList <+: name.toList := by
  cases block with
  | day date =>
      rw [ofBlock, entryMatches, if_neg (getLast?_ofDate_ne naming docType date),
        decide_eq_true_iff] at h
      rw [← h, toList_ofDate]
      exact List.prefix_append _ _
  | month year month =>
      rw [ofBlock, entryMatches_pattern] at h
      refine List.IsPrefix.trans ?_ h
      simp only [String.toList_append, List.append_assoc]
      exact List.prefix_append _ _
  | year year =>
      rw [ofBlock, entryMatches_pattern] at h
      refine List.IsPrefix.trans ?_ h
      simp only [String.toList_append, List.append_assoc]
      exact List.prefix_append _ _

/-- No partition has a name of a type that starts with another character. -/
theorem not_stem_prefix
    {c d : Char} {rest rest' : List Char} {other : String}
    (hdocType : docType.toList = c :: rest)
    (hother : other.toList = d :: rest')
    (hne : c ≠ d)
    (naming : Naming) (date : Date) :
    ¬ (naming.stem docType).toList <+: (naming.ofDate other date).toList := by
  rw [toList_ofDate]
  simp only [stem, String.toList_append, List.append_assoc, List.prefix_append_right_inj, hdocType,
    hother, List.cons_append, List.cons_prefix_cons]
  exact fun h => hne h.1

/-- No partition of dependencies has the name of one of spans. -/
theorem not_stem_prefix_dependency (naming : Naming) (date : Date) :
    ¬ (naming.stem DocType.span).toList <+: (naming.ofDate DocType.dependency date).toList :=
  not_stem_prefix rfl rfl (by decide) naming date

/-- No partition of spans has the name of one of dependencies. -/
theorem not_stem_prefix_span (naming : Naming) (date : Date) :
    ¬ (naming.stem DocType.dependency).toList <+: (naming.ofDate DocType.span date).toList :=
  not_stem_prefix rfl rfl (by decide) naming date

/-! ### Targets -/

/-- A list of entries without commas reaches what one of them stands for. -/
theorem isTarget_intercalate
    {entries : List String}
    (hnil : entries ≠ [])
    (hcomma : ∀ entry ∈ entries, ',' ∉ entry.toList)
    (partition : String) :
    isTarget (",".intercalate entries) partition = entries.any fun entry =>
      Pattern.fits (Pattern.parts entry.toList) partition.toList := by
  have hsplit : (",".intercalate entries).toList.splitOn ',' = entries.map String.toList := by
    rw [String.toList_intercalate]
    refine List.splitOn_intercalate ',' (fun text hmem => ?_) (by simpa using hnil)
    obtain ⟨entry, hentry, rfl⟩ := List.mem_map.mp hmem
    exact hcomma entry hentry
  rw [isTarget, hsplit, List.any_map]
  rfl

/-- The entries of blocks reach the partitions of their days. -/
theorem isTarget_ofBlock_iff
    (hnaming : naming.IsLiteral)
    (hdocType : Text.IsLiteral docType.toList)
    {blocks : List Block}
    (hnil : blocks ≠ [])
    (name : String) :
    isTarget (",".intercalate (blocks.map (naming.ofBlock docType))) name = true ↔
      ∃ block ∈ blocks, entryMatches (naming.ofBlock docType block) name = true := by
  rw [isTarget_intercalate (by simpa using hnil)]
  · simp only [List.any_map, List.any_eq_true, Function.comp, fits_ofBlock hnaming hdocType]
  · intro entry hentry
    obtain ⟨block, -, rfl⟩ := List.mem_map.mp hentry
    exact comma_notMem_ofBlock hnaming hdocType block

/-- The entries of blocks do not reach a partition that has no name of their type. -/
theorem isTarget_ofBlock_eq_false
    (hnaming : naming.IsLiteral)
    (hdocType : Text.IsLiteral docType.toList)
    {blocks : List Block}
    (hnil : blocks ≠ [])
    {name : String}
    (hname : ¬ (naming.stem docType).toList <+: name.toList) :
    isTarget (",".intercalate (blocks.map (naming.ofBlock docType))) name = false := by
  rw [Bool.eq_false_iff, ne_eq, isTarget_ofBlock_iff hnaming hdocType hnil]
  rintro ⟨block, -, hmatches⟩
  exact hname (stem_prefix_of_entryMatches hmatches)

/-- The entries of blocks that hold the days of a range reach the partitions of these days. -/
theorem isTarget_ofDate_iff
    (hnaming : naming.IsLiteral)
    (hdocType : Text.IsLiteral docType.toList)
    {first final : Int} {blocks : List Block}
    (hnil : blocks ≠ [])
    (hcalendar : ∀ block ∈ blocks, block.InCalendar)
    (hcount : ∀ date : Date, date.IsValid → blocks.countP (·.holds date) =
      if first ≤ date.toDay ∧ date.toDay ≤ final then 1 else 0)
    {date : Date}
    (hdate : date.InCalendar) :
    isTarget (",".intercalate (blocks.map (naming.ofBlock docType))) (naming.ofDate docType date) =
        true ↔
      first ≤ date.toDay ∧ date.toDay ≤ final := by
  rw [isTarget_ofBlock_iff hnaming hdocType hnil,
    ← Partition.exists_holds_iff (hcount date hdate.toIsValid)]
  refine exists_congr fun block => and_congr_right fun hblock => ?_
  rw [entryMatches_ofBlock naming docType (hcalendar block hblock) hdate]

/-- The pattern of all partitions of a type reaches the names of this type. -/
theorem isTarget_allPattern_iff
    (hnaming : naming.IsLiteral)
    (hdocType : Text.IsLiteral docType.toList)
    (name : String) :
    isTarget (",".intercalate [naming.allPattern docType]) name = true ↔
      (naming.stem docType).toList <+: name.toList := by
  have hstem := isLiteral_stem hnaming hdocType
  rw [isTarget_intercalate (List.cons_ne_nil _ _)]
  · rw [List.any_cons, List.any_nil, Bool.or_false, allPattern, String.toList_append]
    exact Pattern.fits_start_iff hstem name.toList
  · intro entry hentry
    rw [List.mem_singleton.mp hentry, allPattern, String.toList_append, List.mem_append]
    rintro (hmem | hmem)
    · exact hstem ',' hmem (by decide)
    · exact absurd hmem (by decide)

/-! ### Stored documents -/

theorem exists_ofDate
    {millis : Int} {partition : String}
    (h : naming.ofMillis docType millis = .ok partition) :
    ∃ day, Calendar.dayOfMillis millis = .ok day ∧
      partition = naming.ofDate docType (Date.ofDay day) := by
  rw [Naming.ofMillis] at h
  cases hday : Calendar.dayOfMillis millis with
  | error error =>
      rw [hday] at h
      cases h
  | ok day =>
      rw [hday] at h
      cases h
      exact ⟨day, rfl, rfl⟩

theorem isLiteral_span : Text.IsLiteral DocType.span.toList := by decide

theorem isLiteral_dependency : Text.IsLiteral DocType.dependency.toList := by decide

/-- The partitions of spans are those of the span documents. -/
theorem stem_prefix_partition_iff (document : StoredDocument naming) :
    (naming.stem DocType.span).toList <+: document.partition.toList ↔
      document.span?.isSome = true := by
  cases document with
  | span document partition stored =>
      obtain ⟨day, -, hpartition⟩ := exists_ofDate stored
      simp only [StoredDocument.partition, StoredDocument.span?, Option.isSome_some, iff_true]
      rw [hpartition, toList_ofDate]
      exact List.prefix_append _ _
  | dependency body day partition stored =>
      obtain ⟨day, -, hpartition⟩ := exists_ofDate stored
      simp only [StoredDocument.partition, StoredDocument.span?, Option.isSome_none,
        Bool.false_eq_true, iff_false]
      rw [hpartition]
      exact not_stem_prefix_dependency naming (Date.ofDay day)

/-- The pattern of all span partitions reaches just the span documents. -/
theorem isTarget_allSpans
    (hnaming : naming.IsLiteral)
    (document : StoredDocument naming) :
    isTarget (",".intercalate [naming.allPattern DocType.span]) document.partition =
      document.span?.isSome := by
  rw [Bool.eq_iff_iff, isTarget_allPattern_iff hnaming isLiteral_span,
    stem_prefix_partition_iff document]

/-- The entries of blocks of span partitions reach no document that is not one of a span. -/
theorem isTarget_blocks_le
    (hnaming : naming.IsLiteral)
    {blocks : List Block}
    (hnil : blocks ≠ [])
    {document : StoredDocument naming}
    (htarget : isTarget (",".intercalate (blocks.map (naming.ofBlock DocType.span)))
      document.partition = true) :
    document.span?.isSome = true := by
  obtain ⟨block, -, hmatches⟩ := (isTarget_ofBlock_iff hnaming isLiteral_span hnil _).mp htarget
  exact (stem_prefix_partition_iff document).mp (stem_prefix_of_entryMatches hmatches)

/-- A span document within a window lies in a partition that the entries of the window reach. -/
theorem isTarget_of_inWindow
    (hnaming : naming.IsLiteral)
    {begin last : Int} {blocks : List Block}
    (hbegin : Calendar.firstDay ≤ begin / 86400000)
    (hlast : last / 86400000 ≤ Calendar.lastDay)
    (hcalendar : ∀ block ∈ blocks, block.InCalendar)
    (hcount : ∀ date : Date, date.IsValid → blocks.countP (·.holds date) =
      if begin / 86400000 ≤ date.toDay ∧ date.toDay ≤ last / 86400000 then 1 else 0)
    {millis : Int} {partition : String}
    (hpartition : naming.ofMillis DocType.span millis = .ok partition)
    (hle : begin ≤ millis)
    (hge : millis ≤ last) :
    isTarget (",".intercalate (blocks.map (naming.ofBlock DocType.span))) partition = true := by
  obtain ⟨day, hday, rfl⟩ := exists_ofDate hpartition
  have hfirst : begin / 86400000 ≤ millis / 86400000 := Int.ediv_le_ediv (by decide) hle
  have hfinal : millis / 86400000 ≤ last / 86400000 := Int.ediv_le_ediv (by decide) hge
  rw [Calendar.dayOfMillis_eq (by omega) (by omega), Except.ok.injEq] at hday
  subst hday
  have hdate : (Date.ofDay (millis / 86400000)).InCalendar :=
    Calendar.inCalendar_ofDay (by omega) (by omega)
  have hnil : blocks ≠ [] := by
    rintro rfl
    have hheld := hcount _ hdate.toIsValid
    rw [Date.toDay_ofDay, if_pos ⟨hfirst, hfinal⟩] at hheld
    cases hheld
  rw [isTarget_ofDate_iff hnaming isLiteral_span hnil hcalendar hcount hdate, Date.toDay_ofDay]
  exact ⟨hfirst, hfinal⟩

/-- Filtering the documents that a search reaches is filtering the span documents, when every span
document that it does not reach would be rejected and it reaches no other. -/
theorem filterM_stored
    {archive : Archive naming} {target : String} {p : Json → Except Failure Bool}
    (hspans : ∀ document ∈ archive,
      isTarget target document.partition = true → document.span?.isSome = true)
    (hrejected : ∀ document partition stored, StoredDocument.span document partition stored ∈ archive →
      isTarget target partition = false → p document.body = .ok false) :
    ((archive.stored.filter fun document => isTarget target document.1).map Prod.snd).filterM p =
      (archive.spans.filterM fun document => p document.body).map (List.map SpanDocument.body) := by
  induction archive with
  | nil => rfl
  | cons first rest ih =>
      have hrest := ih (fun document hmem => hspans document (List.mem_cons_of_mem first hmem))
        fun document partition stored hmem =>
          hrejected document partition stored (List.mem_cons_of_mem first hmem)
      cases first with
      | dependency body day partition hstored =>
          have hfalse : isTarget target partition = false := by
            rw [Bool.eq_false_iff]
            exact fun htrue => absurd (hspans _ List.mem_cons_self htrue) Bool.false_ne_true
          rw [stored_cons_dependency, spans_cons_dependency]
          simp only [List.filter_cons, hfalse, Bool.false_eq_true, if_false]
          exact hrest
      | span document partition hstored =>
          rw [stored_cons_span, spans_cons_span, filterM_cons]
          cases htarget : isTarget target partition with
          | true =>
              simp only [List.filter_cons, htarget, if_true, List.map_cons]
              rw [filterM_cons, hrest]
              cases p document.body with
              | error failure => rfl
              | ok keep =>
                  cases (spans rest).filterM fun document => p document.body with
                  | error failure => rfl
                  | ok kept => cases keep <;> rfl
          | false =>
              simp only [List.filter_cons, htarget, Bool.false_eq_true, if_false]
              rw [hrest, hrejected document partition hstored List.mem_cons_self htarget]
              cases (spans rest).filterM fun document => p document.body with
              | error failure => rfl
              | ok kept => rfl

end Archive
end TraceArchive
