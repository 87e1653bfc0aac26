import Mathlib.Data.List.Basic
import Mathlib.Data.List.Induction
import TraceArchive.Proofs.Grouping

/-!
# Assembling traces from any two responses

Whatever trace IDs were listed and whatever spans were fetched: the assembled traces are whole, they
are of different keys, and they come in the order of the list, or else in that of the spans.

* `Arranges`: the keys of the assembled traces, in their order.
* `filter_sortByRank`: sorting by rank keeps the order of what has one rank.
* `exists_arranges_of_assemble`: every assembly is such an arrangement.
-/

set_option autoImplicit false

namespace TraceArchive

/-- What is not repeated comes in the order of the first positions. -/
theorem pairwise_idxOf_eraseDups
    {α : Type} [DecidableEq α]
    (list : List α) :
    list.eraseDups.Pairwise fun a b => list.idxOf a < list.idxOf b := by
  induction list using List.reverseRecOn with
  | nil => exact .nil
  | append_singleton rest a ih =>
      have hrest : rest.eraseDups.Pairwise fun b c =>
          (rest ++ [a]).idxOf b < (rest ++ [a]).idxOf c := by
        refine ih.imp_of_mem fun {b c} hb hc hlt => ?_
        rw [List.idxOf_append_of_mem (List.mem_eraseDups.mp hb),
          List.idxOf_append_of_mem (List.mem_eraseDups.mp hc)]
        exact hlt
      rw [eraseDups_concat]
      split
      · exact hrest
      · rename_i hnew
        refine List.pairwise_append.mpr ⟨hrest, List.pairwise_singleton _ _, ?_⟩
        intro b hb c hc
        cases List.mem_singleton.mp hc
        have hmem := List.mem_eraseDups.mp hb
        rw [List.idxOf_append_of_mem hmem, List.idxOf_append_of_notMem hnew]
        exact Nat.lt_of_lt_of_le (List.idxOf_lt_length_of_mem hmem) (Nat.le_add_right _ _)

section Ranks

variable {α : Type} (rank : α → Nat) (list : List α)

/-- Sorting by rank keeps the order of what has one rank. -/
theorem filter_sortByRank
    {p : α → Bool} {place : Nat}
    (hplace : ∀ a, p a = true → rank a = place) :
    (sortByRank rank list).filter p = list.filter p := by
  have hequal : (list.filter p).Pairwise fun a b => decide (rank a ≤ rank b) = true := by
    refine List.pairwise_of_forall_mem_list fun a ha b hb => ?_
    rw [hplace a (List.mem_filter.mp ha).2, hplace b (List.mem_filter.mp hb).2]
    exact decide_eq_true (Nat.le_refl place)
  have hsublist : (list.filter p).Sublist (sortByRank rank list) :=
    List.sublist_mergeSort (le_rank_trans rank) (le_rank_total rank) hequal List.filter_sublist
  have hfiltered := hsublist.filter p
  rw [List.filter_filter] at hfiltered
  simp only [Bool.and_self] at hfiltered
  exact (hfiltered.eq_of_length ((perm_sortByRank rank list).filter p).length_eq.symm).symm

end Ranks

namespace Trace

/-- The keys of the listed trace IDs, as often as they are listed. -/
def listedKeys (strict : Bool) (ids : List String) : List TraceId :=
  (ids.filterMap TraceId.parse?).map (TraceId.key strict)

/-- The keys of the fetched spans, as often as they are fetched. -/
def fetchedKeys (strict : Bool) (spans : List Span) : List TraceId :=
  spans.map fun span => span.traceId.key strict

/-- A trace that is answered: its first span has no high half, or the trace satisfies the
criteria. -/
def IsAnswered (criteria : Criteria) (trace : Trace) : Prop :=
  ∃ first rest, trace = first :: rest ∧
    (first.traceId.high = 0 ∨ criteria.matchesTrace trace = true)

/-- The keys of the traces that are answered: just those of such traces, each once, the listed ones
in the order in which they are first listed and the others in the order in which they are first
fetched. -/
structure Arranges
    (criteria : Criteria)
    (strict : Bool)
    (ids : List String)
    (spans : List Span)
    (keys : List TraceId) : Prop where
  nodup : keys.Nodup
  answered : ∀ key, key ∈ keys ↔ IsAnswered criteria (ofKey strict spans key)
  listed : (keys.filter fun key => key ∈ listedKeys strict ids).Pairwise fun a b =>
    (listedKeys strict ids).idxOf a < (listedKeys strict ids).idxOf b
  unlisted : (keys.filter fun key => key ∉ listedKeys strict ids).Pairwise fun a b =>
    (fetchedKeys strict spans).idxOf a < (fetchedKeys strict spans).idxOf b

theorem keeps_iff {criteria : Criteria} {trace : Trace} :
    keeps criteria trace = true ↔ IsAnswered criteria trace := by
  cases trace with
  | nil => simp [keeps, IsAnswered]
  | cons first rest => simp [keeps, IsAnswered]

/-- Only lists of trace IDs are read. -/
theorem mapM_readId_eq_ok
    {ids : List String} {listed : List TraceId}
    (h : (ids.map Json.str).mapM readId = .ok listed) :
    listed = ids.filterMap TraceId.parse? := by
  induction ids generalizing listed with
  | nil =>
      cases h
      rfl
  | cons id rest ih =>
      rw [List.map_cons, List.mapM_cons] at h
      cases hparse : TraceId.parse? id with
      | none =>
          have hread : readId (.str id) = .error (.invalidTraceId (.str id)) := by
            simp [readId, Json.text?, hparse]
          rw [hread] at h
          cases h
      | some parsed =>
          have hread : readId (.str id) = .ok parsed := by
            simp [readId, Json.text?, hparse]
          rw [hread] at h
          cases hrest : (rest.map Json.str).mapM readId with
          | error error =>
              rw [hrest] at h
              cases h
          | ok others =>
              rw [hrest] at h
              cases h
              rw [List.filterMap_cons, hparse, ih hrest]

/-- Valid trace IDs are all read. -/
theorem mapM_readId_of_isSome
    {ids : List String}
    (h : ∀ id ∈ ids, (TraceId.parse? id).isSome) :
    (ids.map Json.str).mapM readId = .ok (ids.filterMap TraceId.parse?) := by
  induction ids with
  | nil => rfl
  | cons id rest ih =>
      obtain ⟨hid, hrest⟩ := List.forall_mem_cons.mp h
      obtain ⟨parsed, hparse⟩ := Option.isSome_iff_exists.mp hid
      have hread : readId (.str id) = .ok parsed := by simp [readId, Json.text?, hparse]
      rw [List.map_cons, List.mapM_cons, hread, ih hrest, List.filterMap_cons, hparse]
      rfl

variable {strict : Bool}

/-- The keys of the traces that are answered, when trace IDs are listed. -/
theorem arranges_sortByRank
    (criteria : Criteria)
    (ids : List String)
    (spans : List Span) :
    Arranges criteria strict ids spans
      ((sortByRank (rank strict (ids.filterMap TraceId.parse?)) (keys strict spans)).filter
        fun key => keeps criteria (ofKey strict spans key)) := by
  have hperm := perm_sortByRank (rank strict (ids.filterMap TraceId.parse?)) (keys strict spans)
  have hpairwise :=
    pairwise_sortByRank (rank strict (ids.filterMap TraceId.parse?)) (keys strict spans)
  have hnodup := hperm.nodup_iff.mpr (nodup_keys spans)
  refine ⟨hnodup.filter _, ?_, ?_, ?_⟩
  · intro key
    rw [List.mem_filter, hperm.mem_iff, keeps_iff]
    refine and_iff_right_of_imp ?_
    rintro ⟨first, rest, htrace, _⟩
    by_cases hkey : key ∈ keys strict spans
    · exact hkey
    · rw [ofKey_eq_nil_iff.mpr hkey] at htrace
      cases htrace
  · refine (((hpairwise.and hnodup).filter _).filter _).imp_of_mem fun {a b} ha hb hab => ?_
    have ha' := of_decide_eq_true (List.mem_filter.mp ha).2
    have hb' := of_decide_eq_true (List.mem_filter.mp hb).2
    rw [rank_of_mem ha', rank_of_mem hb'] at hab
    exact Nat.lt_of_le_of_ne hab.1 fun heq => hab.2 ((List.idxOf_inj ha').mp heq)
  · have hplace : ∀ key, decide (key ∉ listedKeys strict ids) = true →
        rank strict (ids.filterMap TraceId.parse?) key =
          (ranks strict 0 [] (ids.filterMap TraceId.parse?)).length :=
      fun key hkey => rank_of_notMem (of_decide_eq_true hkey)
    rw [List.filter_comm, filter_sortByRank _ _ hplace]
    exact ((pairwise_idxOf_eraseDups (fetchedKeys strict spans)).filter _).filter _

/-- Nothing is assembled of no spans. -/
theorem assemble_nil (criteria : Criteria) (strict : Bool) :
    assemble criteria strict [] [] = .ok [] := by
  have hread : ([] : List Json).mapM readId = .ok [] := rfl
  have hkeys : sortByRank (rank strict []) (keys strict []) = [] := by simp [keys, sortByRank]
  rw [assemble, List.map_nil, sortByIds_group_eq hread, hkeys]
  rfl

/-- What is assembled when the trace IDs can be read. -/
theorem assemble_eq
    (criteria : Criteria)
    {ids : List String} {listed : List TraceId}
    (hread : (ids.map Json.str).mapM readId = .ok listed)
    (spans : List Span) :
    assemble criteria strict ids spans =
      .ok (((sortByRank (rank strict listed) (keys strict spans)).filter fun key =>
        keeps criteria (ofKey strict spans key)).map (ofKey strict spans)) := by
  have hwhole : ∀ trace ∈ (sortByRank (rank strict listed) (keys strict spans)).map
      (ofKey strict spans), trace ≠ [] := by
    intro trace hmem
    obtain ⟨key, hkey, rfl⟩ := List.mem_map.mp hmem
    rw [(perm_sortByRank _ _).mem_iff] at hkey
    exact fun hnil => ofKey_eq_nil_iff.mp hnil hkey
  rw [assemble, sortByIds_group_eq hread]
  simp only [bind, Except.bind]
  rw [verify_of_ne_nil criteria hwhole, List.filter_map]
  rfl

/-- Every assembly is an arrangement: no span is lost, repeated or put in the wrong trace. -/
theorem exists_arranges_of_assemble
    {criteria : Criteria} {ids : List String} {spans : List Span} {traces : List Trace}
    (h : assemble criteria strict ids spans = .ok traces) :
    ∃ order, Arranges criteria strict ids spans order ∧
      traces = order.map (ofKey strict spans) := by
  refine ⟨_, arranges_sortByRank criteria ids spans, ?_⟩
  cases hread : (ids.map Json.str).mapM readId with
  | error error =>
      rw [assemble, sortByIds, hread] at h
      cases h
  | ok listed =>
      rw [assemble_eq criteria hread] at h
      cases h
      rw [mapM_readId_eq_ok hread]

end Trace
end TraceArchive
