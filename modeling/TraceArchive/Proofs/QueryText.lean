import Mathlib.Data.List.Basic
import Mathlib.Data.List.Infix
import TraceArchive.Criteria
import TraceArchive.Proofs.Entries

/-!
# The textual form of an annotation query

Entries are joined by the word “and” between spaces, and each entry is a key or a key, an equals sign
and a value.  The separator starts and ends with a space, so two of its occurrences can share one:
a text is cut at the first of them, and an entry that ends in a space and “and” would lose its end.

* `Text.cut?_eq_none_iff`, `Text.cut?_of_first`: where a text is cut.
* `Text.splitOn_intercalate`: cutting a text into the pieces that it was joined from.
* `AnnotationQuery.Asks`, `readEntry_eq_some_iff`: what an entry of the textual form asks for.
* `AnnotationQuery.parse_render`: reading the textual form of a query gives the query.
-/

set_option autoImplicit false

namespace TraceArchive

/-! ### Cutting at a mark -/

namespace Text

variable {mark before after text : List Char}

/-- A text is not cut just when the mark does not occur in it. -/
theorem cut?_eq_none_iff (hmark : mark ≠ []) : cut? mark text = none ↔ ¬ mark <:+: text := by
  induction text with
  | nil => simp [cut?, hmark]
  | cons c rest ih =>
      rw [cut?, List.infix_cons_iff, not_or]
      split
      · rename_i hprefix
        simp [List.isPrefixOf_iff_prefix.mp hprefix]
      · rename_i hprefix
        rw [Option.map_eq_none_iff, ih]
        exact (and_iff_right (fun h => hprefix (List.isPrefixOf_iff_prefix.mpr h))).symm

/-- A text is cut at a mark when no mark starts before that one. -/
theorem cut?_of_first
    (hfirst : ∀ tail, tail ≠ [] → tail <:+ before → ¬ mark <+: tail ++ (mark ++ after)) :
    cut? mark (before ++ (mark ++ after)) = some (before, after) := by
  induction before with
  | nil =>
      rw [List.nil_append]
      cases hwhole : mark ++ after with
      | nil =>
          obtain ⟨rfl, rfl⟩ := List.append_eq_nil_iff.mp hwhole
          rfl
      | cons c rest =>
          rw [cut?, ← hwhole, if_pos (List.isPrefixOf_iff_prefix.mpr (List.prefix_append _ _)),
            List.drop_left]
  | cons c rest ih =>
      have hhead := hfirst (c :: rest) (by simp) List.suffix_rfl
      have hrest := ih fun tail hne hsuffix => hfirst tail hne (hsuffix.trans (List.suffix_cons c rest))
      rw [List.cons_append] at hhead ⊢
      rw [cut?, if_neg (fun h => hhead (List.isPrefixOf_iff_prefix.mp h)), hrest]
      rfl

/-- A text in which a character occurs is cut before the first of its occurrences. -/
theorem cut?_singleton
    {c : Char}
    (hfirst : c ∉ before) :
    cut? [c] (before ++ c :: after) = some (before, after) := by
  refine cut?_of_first fun tail hne hsuffix hprefix => ?_
  obtain ⟨d, tail, rfl⟩ := List.exists_cons_of_ne_nil hne
  have hc : c = d := (List.cons_prefix_cons.mp hprefix).1
  exact hfirst (hsuffix.subset (hc ▸ List.mem_cons_self))

/-- Pieces that are cut off where they end are the pieces of the text that they are joined to. -/
theorem splitOn_intercalate
    {pieces : List (List Char)}
    (hmark : mark ≠ [])
    (hne : pieces ≠ [])
    (hcut : ∀ piece ∈ pieces, ∀ after, cut? mark (piece ++ (mark ++ after)) = some (piece, after))
    (hlast : ∀ piece ∈ pieces, cut? mark piece = none) :
    splitOn mark hmark (mark.intercalate pieces) = pieces := by
  induction pieces with
  | nil => exact absurd rfl hne
  | cons piece rest ih =>
      obtain ⟨hpiece, hcut⟩ := List.forall_mem_cons.mp hcut
      obtain ⟨hnone, hlast⟩ := List.forall_mem_cons.mp hlast
      cases rest with
      | nil =>
          rw [List.intercalate_singleton]
          exact splitOn_of_no_cut? hmark hnone
      | cons next rest =>
          rw [List.intercalate_cons_cons, List.append_assoc, splitOn_of_cut? hmark (hpiece _),
            ih (by simp) hcut hlast]

/-! ### Texts without blanks at their ends -/

theorem dropWhile_eq_self_iff {drop : Char → Bool} :
    text.dropWhile drop = text ↔ ∀ c, text.head? = some c → drop c = false := by
  cases text with
  | nil => simp
  | cons c rest =>
      rw [List.dropWhile_cons]
      split
      · rename_i hdrop
        have hshort := (List.dropWhile_suffix (l := rest) drop).length_le
        refine iff_of_false (fun h => ?_) (by simp [hdrop])
        rw [h, List.length_cons] at hshort
        omega
      · rename_i hkeep
        simpa using hkeep

/-- Trimming leaves just the texts as they are that neither start nor end with what is dropped. -/
theorem trimBy_eq_self_iff {drop : Char → Bool} :
    trimBy drop text = text ↔
      (∀ c, text.head? = some c → drop c = false) ∧ ∀ c, text.getLast? = some c → drop c = false := by
  rw [← dropWhile_eq_self_iff, ← List.head?_reverse, ← dropWhile_eq_self_iff, trimBy]
  constructor
  · intro h
    have hlength := congrArg List.length h
    have hback := (List.dropWhile_suffix (l := (text.dropWhile drop).reverse) drop).length_le
    have hfront := List.dropWhile_suffix (l := text) drop
    rw [List.length_reverse] at hlength hback
    have hstart : text.dropWhile drop = text :=
      hfront.eq_of_length (Nat.le_antisymm hfront.length_le (by omega))
    rw [hstart] at h
    exact ⟨hstart, by rw [← List.reverse_eq_iff, h]⟩
  · rintro ⟨hstart, hend⟩
    rw [hstart, hend, List.reverse_reverse]

/-- Of trimmed texts, neither of them empty, the text that starts with the one and ends with the
other is trimmed. -/
theorem trim_append
    {first last : List Char}
    (hfirst : trim first = first)
    (hlast : trim last = last)
    (hfirst' : first ≠ [])
    (hlast' : last ≠ [])
    (middle : List Char) :
    trim (first ++ (middle ++ last)) = first ++ (middle ++ last) := by
  have hstart := (trimBy_eq_self_iff.mp hfirst).1
  have hend := (trimBy_eq_self_iff.mp hlast).2
  obtain ⟨c, hc⟩ := Option.ne_none_iff_exists'.mp (List.head?_eq_none_iff.not.mpr hfirst')
  obtain ⟨d, hd⟩ := Option.ne_none_iff_exists'.mp (List.getLast?_eq_none_iff.not.mpr hlast')
  refine trimBy_eq_self_iff.mpr ⟨fun e he => hstart e ?_, fun e he => hend e ?_⟩
  · simpa [List.head?_append, hc] using he
  · simpa [List.getLast?_append, hd] using he

end Text

/-! ### Entries of the textual form -/

namespace AnnotationQuery

open Text

/-- What an entry of the textual form asks for, if it is not blank: without an equals sign for the
presence of a key, else for the key before the first one with the value after it. -/
inductive Asks (entry : List Char) : String × String → Prop
  | presence
      (notBlank : trim entry ≠ [])
      (noSign : '=' ∉ trim entry) :
      Asks entry (String.ofList (trim entry), "")
  | tagValue
      (key value : List Char)
      (split : trim entry = key ++ '=' :: value)
      (first : '=' ∉ key) :
      Asks entry (String.ofList (trim key), String.ofList (trim value))

theorem readEntry_of_mem
    {entry key value : List Char}
    (split : trim entry = key ++ '=' :: value)
    (first : '=' ∉ key) :
    readEntry entry = some (String.ofList (trim key), String.ofList (trim value)) := by
  rw [readEntry]
  simp only [split, cut?_singleton first]
  simp

theorem readEntry_of_notMem {entry : List Char} (noSign : '=' ∉ trim entry) :
    readEntry entry =
      if trim entry = [] then none else some (String.ofList (trim entry), "") := by
  have hnone : cut? ['='] (trim entry) = none := by
    rw [cut?_eq_none_iff (by decide), List.singleton_infix_iff]
    exact noSign
  rw [readEntry]
  simp only [hnone, List.isEmpty_iff]

/-- An entry is read as what it asks for. -/
theorem readEntry_eq_some_iff {entry : List Char} {asked : String × String} :
    readEntry entry = some asked ↔ Asks entry asked := by
  constructor
  · intro h
    by_cases hsign : '=' ∈ trim entry
    · obtain ⟨key, value, split, first⟩ := List.eq_append_cons_of_mem hsign
      rw [readEntry_of_mem split first] at h
      cases h
      exact .tagValue key value split first
    · rw [readEntry_of_notMem hsign] at h
      split at h
      · cases h
      · rename_i hblank
        cases h
        exact .presence hblank hsign
  · rintro (⟨notBlank, noSign⟩ | ⟨key, value, split, first⟩)
    · rw [readEntry_of_notMem noSign, if_neg notBlank]
    · exact readEntry_of_mem split first

/-! ### Writing and reading -/

theorem separator_ne_nil : " and ".toList ≠ [] := by decide

/-- The entries of the textual form, as they stand between the separators. -/
def pieces (text : String) : List (List Char) :=
  splitOn " and ".toList separator_ne_nil text.toList

theorem parse_eq (text : String) :
    parse text = Entries.ofList ((pieces text).filterMap readEntry) := rfl

/-- The textual form of a query. -/
def render (query : AnnotationQuery) : String :=
  " and ".intercalate (query.map word)

/-- The queries that keep their entries in the textual form: no key is repeated, keys and values are
trimmed, keys are neither empty nor with an equals sign, and no entry holds the separator, not even
with the space that comes after it. -/
structure IsPlain (query : AnnotationQuery) : Prop where
  nodup : (Entries.keys query).Nodup
  keyTrimmed : ∀ entry ∈ query, trim entry.1.toList = entry.1.toList
  valueTrimmed : ∀ entry ∈ query, trim entry.2.toList = entry.2.toList
  keyNotEmpty : ∀ entry ∈ query, entry.1 ≠ ""
  keyNoSign : ∀ entry ∈ query, '=' ∉ entry.1.toList
  unbroken : ∀ entry ∈ query, ¬ " and ".toList <:+: (word entry).toList ++ [' ']

/-- A text that does not hold the separator, not even with the space that comes after it, is cut off
where it ends: a separator that starts inside it shares no more than a space with the one that
follows. -/
theorem cut?_separator
    {piece : List Char}
    (hclear : ¬ " and ".toList <:+: piece ++ [' '])
    (after : List Char) :
    cut? " and ".toList (piece ++ (" and ".toList ++ after)) = some (piece, after) := by
  refine cut?_of_first fun tail hne hsuffix hprefix => ?_
  have hmark : " and ".toList = ' ' :: ['a', 'n', 'd', ' '] := by decide
  match tail, hne with
  | [a], _ => simp [hmark, List.cons_prefix_cons] at hprefix
  | [a, b], _ => simp [hmark, List.cons_prefix_cons] at hprefix
  | [a, b, c], _ => simp [hmark, List.cons_prefix_cons] at hprefix
  | a :: b :: c :: d :: rest, _ =>
      -- the separator lies within the text and the space after it
      have hspace : a :: b :: c :: d :: rest ++ [' '] <+:
          a :: b :: c :: d :: rest ++ (" and ".toList ++ after) := by
        rw [List.prefix_append_right_inj, hmark]
        exact ⟨_, rfl⟩
      have hwithin : " and ".toList <+: a :: b :: c :: d :: rest ++ [' '] :=
        List.prefix_of_prefix_length_le hprefix hspace (by simp [hmark])
      exact hclear (hwithin.isInfix.trans ((List.suffix_append_inj_of_length_eq rfl).mpr
        ⟨hsuffix, rfl⟩).isInfix)

theorem cut?_eq_none_of_clear
    {piece : List Char}
    (hclear : ¬ " and ".toList <:+: piece ++ [' ']) :
    cut? " and ".toList piece = none :=
  (cut?_eq_none_iff separator_ne_nil).mpr fun h =>
    hclear (h.trans (List.prefix_append piece [' ']).isInfix)

/-- A word is read as the entry that it was written for. -/
theorem readEntry_word
    {key value : String}
    (keyTrimmed : trim key.toList = key.toList)
    (valueTrimmed : trim value.toList = value.toList)
    (keyNotEmpty : key ≠ "")
    (keyNoSign : '=' ∉ key.toList) :
    readEntry (word (key, value)).toList = some (key, value) := by
  rw [readEntry_eq_some_iff]
  have hkey : key.toList ≠ [] := fun h => keyNotEmpty (String.toList_eq_nil_iff.mp h)
  by_cases hvalue : value = ""
  · have hasks : Asks key.toList (String.ofList (trim key.toList), "") :=
      .presence (by rwa [keyTrimmed]) (by rwa [keyTrimmed])
    rw [keyTrimmed, String.ofList_toList] at hasks
    rw [word, if_pos hvalue, hvalue]
    exact hasks
  · have hsplit : (word (key, value)).toList = key.toList ++ '=' :: value.toList := by
      simp [word, hvalue]
    have hvalue' : value.toList ≠ [] := fun h => hvalue (String.toList_eq_nil_iff.mp h)
    have htrim := trim_append keyTrimmed valueTrimmed hkey hvalue' ['=']
    have hasks : Asks (word (key, value)).toList _ :=
      .tagValue key.toList value.toList (hsplit ▸ htrim) keyNoSign
    rwa [keyTrimmed, valueTrimmed, String.ofList_toList, String.ofList_toList] at hasks

namespace IsPlain

variable {query : AnnotationQuery}

/-- The pieces of the textual form are the words of the entries. -/
theorem pieces_render (plain : IsPlain query) (hne : query ≠ []) :
    pieces (render query) = query.map fun entry => (word entry).toList := by
  rw [pieces, render, String.toList_intercalate, List.map_map]
  refine splitOn_intercalate _ (by simpa using hne) ?_ ?_
  · rintro piece hmem after
    obtain ⟨entry, hentry, rfl⟩ := List.mem_map.mp hmem
    exact cut?_separator (plain.unbroken entry hentry) after
  · rintro piece hmem
    obtain ⟨entry, hentry, rfl⟩ := List.mem_map.mp hmem
    exact cut?_eq_none_of_clear (plain.unbroken entry hentry)

/-- The words of the entries are read as the entries. -/
theorem filterMap_readEntry (plain : IsPlain query) :
    (query.map fun entry => (word entry).toList).filterMap readEntry = query := by
  rw [List.filterMap_map]
  refine (List.filterMap_congr fun entry hmem => ?_).trans List.filterMap_some
  exact readEntry_word (plain.keyTrimmed entry hmem) (plain.valueTrimmed entry hmem)
    (plain.keyNotEmpty entry hmem) (plain.keyNoSign entry hmem)

end IsPlain

/-- **Reading the textual form of a query gives the query**, its entries in the same order, if the
query is one that keeps them there. -/
theorem parse_render
    {query : AnnotationQuery}
    (plain : IsPlain query) :
    parse (render query) = query := by
  by_cases hempty : query = []
  · subst hempty
    have hpieces : pieces (render []) = [[]] := splitOn_of_no_cut? separator_ne_nil rfl
    rw [parse_eq, hpieces]
    rfl
  · rw [parse_eq, plain.pieces_render hempty, plain.filterMap_readEntry,
      Entries.ofList_of_nodup plain.nodup]

/-- Keys that are made of the word “and” or start with it, and a value with an equals sign. -/
theorem parse_render_ofAnds :
    render [("and", ""), ("sql", "a=b"), ("and so on", "")] = "and and sql=a=b and and so on" ∧
      parse "and and sql=a=b and and so on" = [("and", ""), ("sql", "a=b"), ("and so on", "")] := by
  have hrender : render [("and", ""), ("sql", "a=b"), ("and so on", "")] =
      "and and sql=a=b and and so on" := by decide
  refine ⟨hrender, hrender ▸ parse_render ?_⟩
  exact ⟨by decide, by decide, by decide, by decide, by decide, by decide⟩

end AnnotationQuery
end TraceArchive
