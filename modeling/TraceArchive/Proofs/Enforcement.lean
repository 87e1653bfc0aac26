import TraceArchive.Proofs.Matching
import TraceArchive.Proofs.QueryText

/-!
# What a textual query enforces

The entries of a textual query are written into a dictionary one after the other, so the last entry
that asks for a key decides what is asked of it.  An entry is enforced when every trace that satisfies
the criteria has a span that witnesses the entry.  That is so for every entry that asks for presence
only, and for an entry with a value just when it is the last one of its key or the last one asks for
the same value.

* `AnnotationQuery.mem_parse_iff`: what is left of the entries of a text.
* `Criteria.matchesTrace_exemplar`: valid criteria are satisfied by a trace that shows no more than
  they ask for.
* `Criteria.enforces_iff`: what criteria enforce.
* `Criteria.enforces_entry_iff`: which entries of a textual query are enforced.
-/

set_option autoImplicit false

namespace TraceArchive

namespace AnnotationQuery

/-- The last entry of a text that asks for a key asks for it with this value. -/
def LastAsks (text : String) (asked : String × String) : Prop :=
  ∃ before piece after, pieces text = before ++ piece :: after ∧ Asks piece asked ∧
    ∀ later ∈ after, ∀ other, Asks later other → other.1 ≠ asked.1

/-- The dictionary of a text has what the last entry of each key asks for. -/
theorem mem_parse_iff {text : String} {asked : String × String} :
    asked ∈ parse text ↔ LastAsks text asked := by
  rw [parse_eq, Entries.mem_ofList_iff]
  constructor
  · rintro ⟨before, after, hsplit, hlater⟩
    obtain ⟨front, rest, hpieces, -, hrest⟩ := List.filterMap_eq_append_iff.mp hsplit
    obtain ⟨skipped, piece, back, rfl, -, hpiece, hback⟩ := List.filterMap_eq_cons_iff.mp hrest
    refine ⟨front ++ skipped, piece, back, by rw [hpieces, List.append_assoc],
      readEntry_eq_some_iff.mp hpiece, fun later hmem other hother => hlater other ?_⟩
    rw [← hback]
    exact List.mem_filterMap.mpr ⟨later, hmem, readEntry_eq_some_iff.mpr hother⟩
  · rintro ⟨before, piece, after, hpieces, hasks, hlater⟩
    refine ⟨before.filterMap readEntry, after.filterMap readEntry, ?_, fun other hmem => ?_⟩
    · rw [hpieces, List.filterMap_append, List.filterMap_cons_some (readEntry_eq_some_iff.mpr hasks)]
    · obtain ⟨later, hmem, hread⟩ := List.mem_filterMap.mp hmem
      exact hlater later hmem other (readEntry_eq_some_iff.mp hread)

/-- Of the entries of a text that ask for a key there is a last one. -/
theorem exists_lastAsks
    {text : String} {piece : List Char} {asked : String × String}
    (hmem : piece ∈ pieces text)
    (hasks : Asks piece asked) :
    ∃ value, LastAsks text (asked.1, value) := by
  have hread : asked ∈ (pieces text).filterMap readEntry :=
    List.mem_filterMap.mpr ⟨piece, hmem, readEntry_eq_some_iff.mpr hasks⟩
  have hkey := Entries.mem_keys_ofList.mpr (List.mem_map_of_mem (f := Prod.fst) hread)
  obtain ⟨entry, hentry, hkey⟩ := List.mem_map.mp hkey
  exact ⟨entry.2, hkey ▸ mem_parse_iff.mp hentry⟩

end AnnotationQuery

namespace Criteria

open AnnotationQuery

variable {criteria : Criteria}

/-- A span that meets criteria and shows no more than they ask for. -/
def exemplar (criteria : Criteria) : Span where
  traceId := ⟨0, 1⟩
  id := "1"
  parentId := none
  name := criteria.spanName
  kind := none
  timestamp := some (criteria.endTs * 1000)
  duration := criteria.minDuration
  localEndpoint := some ⟨criteria.serviceName, none, none, none⟩
  remoteEndpoint := none
  annotations := []
  tags := criteria.annotationQuery
  debug := none
  shared := none

/-- Valid criteria are satisfied by a trace of one span that shows no more than they ask for. -/
theorem matchesTrace_exemplar (valid : criteria.IsValid) :
    criteria.matchesTrace [criteria.exemplar] = true := by
  have hstart : criteria.exemplar.startedAt = some (criteria.endTs * 1000) := by
    have hpos := valid.endTs
    exact Span.startedAt_eq_some_iff.mpr ⟨rfl, by omega⟩
  have hservice : criteria.OfService criteria.exemplar := fun _ h => h
  have hwindow : (criteria.endTs - criteria.lookback) * 1000 ≤ criteria.endTs * 1000 := by
    have hpos := valid.lookback
    omega
  rw [matchesTrace_iff_meets valid]
  refine ⟨⟨_, .root [] _ [] rfl (by simp) rfl hstart, hwindow, Int.le_refl _⟩,
    ⟨_, List.mem_singleton_self _, hservice⟩, fun _ hname => ?_, fun key hmem => ?_,
    fun key value hmem _ => ?_, fun least hleast => ?_⟩
  all_goals refine ⟨_, List.mem_singleton_self _, hservice, ?_⟩
  · exact hname
  · exact Or.inr ⟨"", hmem⟩
  · exact hmem
  · have hduration : criteria.exemplar.duration.getD 0 = least := by
      rw [exemplar, hleast, Option.getD_some]
    rw [hduration]
    refine ⟨Int.le_refl least, fun most hmost => ?_⟩
    obtain ⟨other, hother, hle⟩ := valid.mostDuration most hmost
    cases hleast.symm.trans hother
    exact hle

/-- Criteria enforce an entry when every trace that satisfies them has a span of the requested service
that witnesses it. -/
def Enforces (criteria : Criteria) (asked : String × String) : Prop :=
  ∀ spans, criteria.matchesTrace spans = true →
    ∃ span ∈ spans, criteria.OfService span ∧ Witnesses span asked

/-- A witness of an entry is one of the presence of its key as well. -/
theorem Witnesses.of_key
    {span : Span} {entry asked : String × String}
    (h : Witnesses span entry)
    (hkey : entry.1 = asked.1)
    (hvalue : asked.2 = "" ∨ asked.2 = entry.2) :
    Witnesses span asked := by
  rcases h with ⟨hempty, hnote⟩ | ⟨tag, hmem, htag, htagValue⟩
  · refine Or.inl ⟨hvalue.elim id (·.trans hempty), ?_⟩
    rwa [← hkey]
  · refine Or.inr ⟨tag, hmem, htag.trans hkey, ?_⟩
    rcases hvalue with hempty | hsame
    · exact Or.inl hempty
    · rwa [hsame]

/-- Valid criteria enforce the entries of their query, the presence of their keys and nothing else. -/
theorem enforces_iff
    (valid : criteria.IsValid)
    {asked : String × String} :
    criteria.Enforces asked ↔
      ∃ entry ∈ criteria.annotationQuery, entry.1 = asked.1 ∧ (asked.2 = "" ∨ asked.2 = entry.2) := by
  constructor
  · intro henforces
    obtain ⟨span, hmem, -, hwitness⟩ := henforces _ (matchesTrace_exemplar valid)
    cases List.mem_singleton.mp hmem
    rcases hwitness with ⟨-, note, hnote, -⟩ | htag
    · cases hnote
    · exact htag
  · rintro ⟨entry, hentry, hkey, hvalue⟩ spans hmatch
    have meets := (matchesTrace_iff_meets valid spans).mp hmatch
    obtain ⟨span, hmem, hservice, hwitness⟩ := meets.exists_witness hentry
    exact ⟨span, hmem, hservice, hwitness.of_key hkey hvalue⟩

/-- The query of criteria that were read with a textual one is what the text says. -/
theorem annotationQuery_of_read
    {data : Json} {text : String}
    (hquery : data.member? "annotation_query" = some (.str text))
    (h : read data = .ok criteria) :
    criteria.annotationQuery = parse text := by
  obtain ⟨members, rfl, -⟩ := read_eq_ok_iff.mp h
  rcases annotationQuery_of_member h with ⟨hnone, -⟩ | ⟨value, hget, hread⟩
  · cases hnone.symm.trans hquery
  · cases hget.symm.trans hquery
    exact (Checked.ok.inj hread).symm

/-- **Which entries of a textual query are enforced.**  Whatever the criteria ask for besides, an
entry that asks for the presence of a key is enforced, and an entry that asks for a value just when
the last entry of its key asks for the same value. -/
theorem enforces_entry_iff
    {data : Json} {text : String}
    (hquery : data.member? "annotation_query" = some (.str text))
    (h : read data = .ok criteria)
    {piece : List Char} {asked : String × String}
    (hmem : piece ∈ pieces text)
    (hasks : Asks piece asked) :
    criteria.Enforces asked ↔ asked.2 = "" ∨ LastAsks text asked := by
  have valid : criteria.IsValid := by
    refine isValid_of_read (fun members hmembers => ?_) h
    cases hquery.symm.trans hmembers
  rw [enforces_iff valid, annotationQuery_of_read hquery h]
  constructor
  · rintro ⟨entry, hentry, hkey, hempty | hsame⟩
    · exact Or.inl hempty
    · obtain rfl : entry = asked := Prod.ext hkey hsame.symm
      exact Or.inr (mem_parse_iff.mp hentry)
  · rintro (hempty | hlast)
    · obtain ⟨value, hlast⟩ := exists_lastAsks hmem hasks
      exact ⟨_, mem_parse_iff.mpr hlast, rfl, Or.inl hempty⟩
    · exact ⟨_, mem_parse_iff.mpr hlast, rfl, Or.inr rfl⟩

/-- Criteria with a textual query for two methods. -/
def twoMethods : Json :=
  .obj [
    ("annotation_query", .str "http.method=GET and http.method=POST"),
    ("end_ts", .int 10), ("lookback", .int 4), ("limit", .int 1)]

/-- The second one of the two methods is enforced, the first one is not. -/
theorem not_enforces_firstMethod :
    ∃ criteria, read twoMethods = .ok criteria ∧
      criteria.Enforces ("http.method", "POST") ∧ ¬ criteria.Enforces ("http.method", "GET") := by
  have hread : read twoMethods = .ok _ := rfl
  have hpieces : pieces "http.method=GET and http.method=POST" =
      ["http.method=GET".toList, "http.method=POST".toList] :=
    (Text.splitOn_of_cut? separator_ne_nil rfl).trans
      (congrArg _ (Text.splitOn_of_no_cut? separator_ne_nil rfl))
  have hmem : ∀ piece ∈ ["http.method=GET".toList, "http.method=POST".toList],
      piece ∈ pieces "http.method=GET and http.method=POST" := by simp [hpieces]
  have hget : Asks "http.method=GET".toList ("http.method", "GET") :=
    readEntry_eq_some_iff.mp rfl
  have hpost : Asks "http.method=POST".toList ("http.method", "POST") :=
    readEntry_eq_some_iff.mp rfl
  have hparse : parse "http.method=GET and http.method=POST" = [("http.method", "POST")] := by
    rw [parse_eq, hpieces]
    rfl
  refine ⟨_, hread, ?_, ?_⟩
  · rw [enforces_entry_iff rfl hread (hmem _ (by decide)) hpost, ← mem_parse_iff, hparse]
    decide
  · rw [enforces_entry_iff rfl hread (hmem _ (by decide)) hget, ← mem_parse_iff, hparse]
    decide

end Criteria
end TraceArchive
