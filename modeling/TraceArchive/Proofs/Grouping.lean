import TraceArchive.Proofs.Entries
import TraceArchive.Proofs.Monadic
import TraceArchive.Trace.Group

/-!
# Grouping spans and ordering traces

* `group_eq`: the traces are the spans of each key, in the order in which the keys are first seen.
* `sortByRank_eq`: the order of the positions in a list is the order of the list.
* `sortByIds_eq`, `sortByIds_group_eq`: traces come in the order of the ranks of their keys.
* `sortByIds_group`: when just the keys of the spans are listed, each once, the traces come in the
  order of the list.
* `verify_eq`: checking the traces with a high half is a filter.
-/

set_option autoImplicit false

namespace TraceArchive

section Ranks

variable {α : Type} (rank : α → Nat) (list : List α)

/-- A list in the order of ranks; what has one rank keeps its order. -/
def sortByRank : List α :=
  list.mergeSort fun a b => decide (rank a ≤ rank b)

theorem perm_sortByRank : (sortByRank rank list).Perm list :=
  List.mergeSort_perm list _

theorem le_rank_trans (a b c : α)
    (hab : decide (rank a ≤ rank b) = true)
    (hbc : decide (rank b ≤ rank c) = true) :
    decide (rank a ≤ rank c) = true :=
  decide_eq_true (Nat.le_trans (of_decide_eq_true hab) (of_decide_eq_true hbc))

theorem le_rank_total (a b : α) :
    (decide (rank a ≤ rank b) || decide (rank b ≤ rank a)) = true := by
  simp [Nat.le_total]

theorem pairwise_sortByRank :
    (sortByRank rank list).Pairwise fun a b => rank a ≤ rank b :=
  (List.pairwise_mergeSort (le_rank_trans rank) (le_rank_total rank) list).imp of_decide_eq_true

end Ranks

/-- Listed items without repeats are in the order of their positions, and no other order is. -/
theorem sortByRank_eq
    {α : Type} [DecidableEq α]
    {rank : α → Nat} {list listed : List α}
    (hlist : list.Nodup)
    (hlisted : listed.Nodup)
    (hmem : ∀ item, item ∈ list ↔ item ∈ listed)
    (hrank : ∀ item ∈ listed, rank item = listed.idxOf item) :
    sortByRank rank list = listed := by
  have hinorder : listed.Pairwise fun a b => rank a ≤ rank b := by
    rw [List.pairwise_iff_getElem]
    intro i j hi hj hlt
    rw [hrank _ (List.getElem_mem hi), hrank _ (List.getElem_mem hj),
      hlisted.idxOf_getElem i hi, hlisted.idxOf_getElem j hj]
    exact Nat.le_of_lt hlt
  refine List.Perm.eq_of_pairwise (fun a b ha hb hab hba => ?_) (pairwise_sortByRank rank list)
    hinorder ((perm_sortByRank rank list).trans
      ((List.perm_ext_iff_of_nodup hlist hlisted).mpr hmem))
  have ha' := (hmem a).mp ((perm_sortByRank rank list).mem_iff.mp ha)
  have heq := Nat.le_antisymm hab hba
  rw [hrank a ha', hrank b hb] at heq
  have hget := List.getElem_idxOf (List.idxOf_lt_length_of_mem ha')
  rw [← hget, ← List.getElem_idxOf (List.idxOf_lt_length_of_mem hb)]
  simp only [heq]

namespace Trace

/-- The keys of spans in the order in which they are first seen. -/
def keys (strict : Bool) (spans : List Span) : List TraceId :=
  (spans.map fun span => span.traceId.key strict).eraseDups

/-- The spans with a key. -/
def ofKey (strict : Bool) (spans : List Span) (key : TraceId) : Trace :=
  spans.filter fun span => span.traceId.key strict = key

variable {strict : Bool}

/-! ### Grouping -/

theorem mem_keys {spans : List Span} {key : TraceId} :
    key ∈ keys strict spans ↔ ∃ span ∈ spans, span.traceId.key strict = key := by
  simp [keys]

theorem nodup_keys (spans : List Span) : (keys strict spans).Nodup :=
  nodup_eraseDups _

theorem ofKey_eq_nil_iff {spans : List Span} {key : TraceId} :
    ofKey strict spans key = [] ↔ key ∉ keys strict spans := by
  simp [ofKey, mem_keys, List.filter_eq_nil_iff]

theorem keys_concat (seen : List Span) (span : Span) :
    keys strict (seen ++ [span]) =
      if span.traceId.key strict ∈ keys strict seen then keys strict seen
      else keys strict seen ++ [span.traceId.key strict] := by
  simp only [keys, List.map_append, List.map_singleton, eraseDups_concat, List.mem_eraseDups]

theorem ofKey_concat (seen : List Span) (span : Span) (key : TraceId) :
    ofKey strict (seen ++ [span]) key =
      if key = span.traceId.key strict then ofKey strict seen (span.traceId.key strict) ++ [span]
      else ofKey strict seen key := by
  rw [ofKey, List.filter_append]
  split
  · rename_i heq
    simp [ofKey, heq]
  · rename_i hne
    simp [ofKey, Ne.symm hne]

/-- The groups of the spans seen so far. -/
def groups (strict : Bool) (seen : List Span) : Entries TraceId Trace :=
  (keys strict seen).map fun key => (key, ofKey strict seen key)

theorem addSpan_groups (seen : List Span) (span : Span) :
    addSpan strict (groups strict seen) span = groups strict (seen ++ [span]) := by
  have hfound : (Entries.get? (span.traceId.key strict) (groups strict seen)).getD [] =
      ofKey strict seen (span.traceId.key strict) := by
    rw [groups, Entries.get?_map_mk]
    split
    · rfl
    · rename_i hmem
      rw [ofKey_eq_nil_iff.mpr hmem]
      rfl
  rw [addSpan, hfound]
  simp only [groups]
  rw [Entries.put_map_mk _ _ _ (nodup_keys seen), keys_concat]
  refine List.map_congr_left fun key _ => ?_
  rw [ofKey_concat]

theorem foldl_addSpan (seen rest : List Span) :
    rest.foldl (addSpan strict) (groups strict seen) = groups strict (seen ++ rest) := by
  induction rest generalizing seen with
  | nil => rw [List.foldl_nil, List.append_nil]
  | cons span rest ih =>
      rw [List.foldl_cons, addSpan_groups, ih, List.append_assoc, List.singleton_append]

/-- The traces are the spans of each key, in the order in which the keys are first seen. -/
theorem group_eq (strict : Bool) (spans : List Span) :
    group strict spans = (keys strict spans).map (ofKey strict spans) := by
  have hfold : spans.foldl (addSpan strict) [] = groups strict spans := foldl_addSpan [] spans
  rw [group, hfold, groups, List.map_map]
  rfl

/-! ### Ordering -/

/-- The position of a key is the first one at which it is listed. -/
theorem get?_ranks
    (key : TraceId)
    (listed : List TraceId)
    (start : Nat) (found : Entries TraceId Nat) :
    Entries.get? key (ranks strict start found listed) =
      (Entries.get? key found).or
        (((listed.map (TraceId.key strict)).idxOf? key).map (· + start)) := by
  induction listed generalizing start found with
  | nil => simp [ranks]
  | cons id rest ih =>
      rw [ranks, ih, List.map_cons, List.idxOf?_cons]
      by_cases hid : id.key strict = key
      · simp only [hid, beq_self_eq_true, if_true]
        split
        · rename_i value hvalue
          rw [hvalue]
          rfl
        · rename_i hvalue
          rw [hvalue, Entries.get?_put_self]
          simp
      · simp only [beq_eq_false_iff_ne.mpr hid, Bool.false_eq_true, if_false, Option.map_map]
        have hplace : ((· + start) ∘ fun place => place + 1) = (· + (start + 1)) := by
          funext place
          simp only [Function.comp]
          omega
        rw [hplace]
        split
        · rfl
        · rw [Entries.get?_put_of_ne (Ne.symm hid)]

/-- The rank of a key: the position at which it is first listed, or the number of listed keys. -/
def rank (strict : Bool) (listed : List TraceId) (key : TraceId) : Nat :=
  (Entries.get? key (ranks strict 0 [] listed)).getD (ranks strict 0 [] listed).length

/-- The key of a trace, that of its first span. -/
def firstKey (strict : Bool) : Trace → TraceId
  | [] => default
  | span :: _ => span.traceId.key strict

theorem firstKey_ofKey
    {spans : List Span} {key : TraceId}
    (hkey : key ∈ keys strict spans) :
    firstKey strict (ofKey strict spans key) = key := by
  cases hspan : ofKey strict spans key with
  | nil => exact absurd hkey (ofKey_eq_nil_iff.mp hspan)
  | cons span rest =>
      have hmem : span ∈ ofKey strict spans key := hspan ▸ List.mem_cons_self
      exact of_decide_eq_true (List.mem_filter.mp hmem).2

/-- The position of a trace is the rank of its key. -/
theorem position_eq_rank
    {trace : Trace}
    (hwhole : trace ≠ [])
    (listed : List TraceId) :
    position strict (ranks strict 0 [] listed) trace =
      .ok (rank strict listed (firstKey strict trace)) := by
  cases trace with
  | nil => exact absurd rfl hwhole
  | cons span rest => rfl

theorem rank_of_mem
    {listed : List TraceId} {key : TraceId}
    (h : key ∈ listed.map (TraceId.key strict)) :
    rank strict listed key = (listed.map (TraceId.key strict)).idxOf key := by
  have hplace : (listed.map (TraceId.key strict)).idxOf? key =
      some ((listed.map (TraceId.key strict)).idxOf key) :=
    List.findIdx?_eq_some_of_exists ⟨key, h, beq_self_eq_true key⟩
  rw [rank, get?_ranks, hplace, Entries.get?_nil]
  rfl

theorem rank_of_notMem
    {listed : List TraceId} {key : TraceId}
    (h : key ∉ listed.map (TraceId.key strict)) :
    rank strict listed key = (ranks strict 0 [] listed).length := by
  rw [rank, get?_ranks, List.idxOf?_eq_none_iff.mpr h, Entries.get?_nil]
  rfl

/-- Traces are put in the order of the ranks of their keys. -/
theorem sortByIds_eq
    {values : List Json} {listed : List TraceId}
    (hread : values.mapM readId = .ok listed)
    {traces : List Trace}
    (hwhole : ∀ trace ∈ traces, trace ≠ []) :
    sortByIds strict values traces =
      .ok (sortByRank (fun trace => rank strict listed (firstKey strict trace)) traces) := by
  have hplaced : traces.mapM (fun trace => do
      let place ← position strict (ranks strict 0 [] listed) trace
      return (place, trace)) =
      .ok (traces.map fun trace => (rank strict listed (firstKey strict trace), trace)) := by
    refine mapM_eq_ok fun trace hmem => ?_
    rw [position_eq_rank (hwhole trace hmem)]
    rfl
  have hsorted : (traces.map fun trace =>
      (rank strict listed (firstKey strict trace), trace)).mergeSort
        (fun a b => decide (a.1 ≤ b.1)) =
      (sortByRank (fun trace => rank strict listed (firstKey strict trace)) traces).map fun trace =>
        (rank strict listed (firstKey strict trace), trace) := by
    symm
    apply List.map_mergeSort
    intro a _ b _
    rfl
  rw [sortByIds, hread]
  simp only [bind, Except.bind] at hplaced ⊢
  rw [hplaced]
  simp only [hsorted, List.map_map]
  exact congrArg Except.ok (List.map_id _)

/-- The traces of the spans are put in the order of the ranks of their keys. -/
theorem sortByIds_group_eq
    {values : List Json} {listed : List TraceId}
    (hread : values.mapM readId = .ok listed)
    (spans : List Span) :
    sortByIds strict values (group strict spans) =
      .ok ((sortByRank (rank strict listed) (keys strict spans)).map (ofKey strict spans)) := by
  have hwhole : ∀ trace ∈ group strict spans, trace ≠ [] := by
    intro trace hmem
    obtain ⟨key, hkey, rfl⟩ := List.mem_map.mp (group_eq strict spans ▸ hmem)
    exact fun hnil => ofKey_eq_nil_iff.mp hnil hkey
  rw [sortByIds_eq hread hwhole, group_eq, Except.ok.injEq]
  symm
  apply List.map_mergeSort
  intro a ha b hb
  simp only [firstKey_ofKey ha, firstKey_ofKey hb]

/-- When just the keys of the spans are listed, each once, the traces come in the order of the
list. -/
theorem sortByIds_group
    {values : List Json} {listed : List TraceId} {spans : List Span}
    (hread : values.mapM readId = .ok listed)
    (hnodup : (listed.map (TraceId.key strict)).Nodup)
    (hmem : ∀ key, key ∈ keys strict spans ↔ key ∈ listed.map (TraceId.key strict)) :
    sortByIds strict values (group strict spans) =
      .ok ((listed.map (TraceId.key strict)).map (ofKey strict spans)) := by
  have hsorted : sortByRank (rank strict listed) (keys strict spans) =
      listed.map (TraceId.key strict) :=
    sortByRank_eq (nodup_keys spans) hnodup hmem fun key hkey => rank_of_mem hkey
  rw [sortByIds_group_eq hread, hsorted]

/-! ### Verifying -/

/-- A trace is kept, as a check that does not fail. -/
def keeps (criteria : Criteria) : Trace → Bool
  | [] => false
  | first :: rest => first.traceId.high = 0 || criteria.matchesTrace (first :: rest)

theorem verify_of_ne_nil
    (criteria : Criteria)
    {traces : List Trace}
    (hnil : ∀ trace ∈ traces, trace ≠ []) :
    verify criteria traces = .ok (traces.filter (keeps criteria)) := by
  refine filterM_eq_ok fun trace hmem => ?_
  cases trace with
  | nil => exact absurd rfl (hnil [] hmem)
  | cons first rest => rfl

/-- Checking the traces of one ID each is a filter by the ID and the criteria. -/
theorem verify_eq
    (criteria : Criteria)
    {ids : List TraceId} {traceOf : TraceId → Trace}
    (hid : ∀ id ∈ ids, ∃ span rest, traceOf id = span :: rest ∧ span.traceId = id) :
    verify criteria (ids.map traceOf) =
      .ok ((ids.filter fun id => id.high = 0 || criteria.matchesTrace (traceOf id)).map
        traceOf) := by
  have hnil : ∀ trace ∈ ids.map traceOf, trace ≠ [] := by
    intro trace hmem
    obtain ⟨id, hids, rfl⟩ := List.mem_map.mp hmem
    obtain ⟨span, rest, htrace, _⟩ := hid id hids
    simp [htrace]
  have hkept : ids.filter (keeps criteria ∘ traceOf) =
      ids.filter fun id => id.high = 0 || criteria.matchesTrace (traceOf id) := by
    refine List.filter_congr fun id hids => ?_
    obtain ⟨span, rest, htrace, hspan⟩ := hid id hids
    rw [Function.comp, htrace, keeps, hspan]
  rw [verify_of_ne_nil criteria hnil, List.filter_map, hkept]

end Trace
end TraceArchive
