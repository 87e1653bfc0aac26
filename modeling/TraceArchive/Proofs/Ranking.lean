import TraceArchive.Proofs.Assembly

/-!
# Whether the listed traces come first

Traces are put in the order in which their IDs are listed, by the position at which their key is
first listed.  A trace that is not listed counts as at the number of different listed keys.  When
several of the listed IDs are of one trace that number is less than the number of IDs, and a trace
that is listed late is overtaken by those that are not listed.

* `pairwise_sortByRank_iff`: when an order by ranks has some items before all others.
* `keys_ranks`: the ranks are those of the different listed keys.
* `FollowsList`: listed traces are in the order of the list, others in the order in which they came.
* `sortByIds_followsList`: traces follow the list, and exactly when the listed ones come first.
-/

set_option autoImplicit false

namespace TraceArchive

/-- An item that was there before is left out as a repeat. -/
theorem eraseDups_append_cons_of_mem
    {α : Type} [DecidableEq α]
    {list rest : List α} {a : α}
    (h : a ∈ list) :
    (list ++ a :: rest).eraseDups = (list ++ rest).eraseDups := by
  simp [List.eraseDups_append, List.removeAll, h]

section Ranks

variable {α : Type} {rank : α → Nat} {list : List α}

/-- When all but some items have one rank, the order by ranks has these items before the others just
when none of them has a higher rank, and none of them that has this rank comes after another item. -/
theorem pairwise_sortByRank_iff
    {p : α → Prop} {shared : Nat}
    (hshared : ∀ a, ¬ p a → rank a = shared) :
    ((sortByRank rank list).Pairwise fun a b => p b → p a) ↔
      (∀ a ∈ list, ∀ b ∈ list, p a → ¬ p b → rank a ≤ shared) ∧
        list.Pairwise fun a b => p b → rank b = shared → p a := by
  have hmem : ∀ {a}, a ∈ sortByRank rank list ↔ a ∈ list := (perm_sortByRank rank list).mem_iff
  -- what has the shared rank keeps its order
  have hties : (sortByRank rank list).filter (fun a => rank a = shared) =
      list.filter fun a => rank a = shared := filter_sortByRank rank list fun _ => of_decide_eq_true
  constructor
  · intro hfirst
    constructor
    · intro a ha b hb hpa hpb
      obtain ⟨i, hi, rfl⟩ := List.getElem_of_mem (hmem.mpr ha)
      obtain ⟨j, hj, rfl⟩ := List.getElem_of_mem (hmem.mpr hb)
      rw [← hshared _ hpb]
      rcases Nat.lt_trichotomy i j with hlt | rfl | hgt
      · exact List.pairwise_iff_getElem.mp (pairwise_sortByRank rank list) i j hi hj hlt
      · exact Nat.le_refl _
      · exact absurd (List.pairwise_iff_getElem.mp hfirst j i hj hi hgt hpa) hpb
    · have htied := hfirst.filter fun a => decide (rank a = shared)
      rw [hties, List.pairwise_filter] at htied
      refine htied.imp fun {a b} hfirst hpb hrank => ?_
      by_cases hpa : p a
      · exact hpa
      · exact hfirst (decide_eq_true (hshared a hpa)) (decide_eq_true hrank) hpb
  · rintro ⟨hbound, horder⟩
    have htied := horder.filter fun a => decide (rank a = shared)
    rw [← hties, List.pairwise_filter] at htied
    refine ((pairwise_sortByRank rank list).and htied).imp_of_mem fun {a b} ha hb hab hpb => ?_
    by_cases hpa : p a
    · exact hpa
    · have hrank := hshared a hpa
      have hle := hbound b (hmem.mp hb) a (hmem.mp ha) hpb hpa
      have hrank' : rank b = shared := Nat.le_antisymm hle (hrank ▸ hab.1)
      exact hab.2 (decide_eq_true hrank) (decide_eq_true hrank') hpb hrank'

end Ranks

namespace Trace

variable {strict : Bool}

/-! ### Listed keys -/

/-- The keys that have ranks are the different ones among those that had one and the listed ones. -/
theorem keys_ranks
    {found : Entries TraceId Nat}
    (nodup : (Entries.keys found).Nodup)
    (start : Nat) (listed : List TraceId) :
    Entries.keys (ranks strict start found listed) =
      (Entries.keys found ++ listed.map (TraceId.key strict)).eraseDups := by
  induction listed generalizing start found with
  | nil => rw [ranks, List.map_nil, List.append_nil, eraseDups_of_nodup nodup]
  | cons id rest ih =>
      rw [ranks, List.map_cons]
      cases hget : Entries.get? (id.key strict) found with
      | some position =>
          have hold : id.key strict ∈ Entries.keys found :=
            List.mem_map_of_mem (Entries.mem_of_get? hget)
          rw [eraseDups_append_cons_of_mem hold]
          exact ih nodup (start + 1)
      | none =>
          have hnew := Entries.get?_eq_none_iff.mp hget
          have hkeys : Entries.keys (Entries.put (id.key strict) start found) =
              Entries.keys found ++ [id.key strict] := by
            rw [Entries.keys_put, if_neg hnew]
          have hrest := ih (Entries.nodup_keys_put nodup (id.key strict) start) (start + 1)
          rw [hkeys, List.append_assoc] at hrest
          exact hrest

/-- The number of different traces that IDs are listed of. -/
def listedCount (strict : Bool) (ids : List String) : Nat :=
  (listedKeys strict ids).eraseDups.length

/-- A trace whose key is that of a listed ID. -/
def IsListed (strict : Bool) (ids : List String) (trace : Trace) : Prop :=
  firstKey strict trace ∈ listedKeys strict ids

instance (strict : Bool) (ids : List String) (trace : Trace) :
    Decidable (IsListed strict ids trace) :=
  inferInstanceAs (Decidable (_ ∈ _))

/-- The number of IDs that are listed before the first one of a trace. -/
def place (strict : Bool) (ids : List String) (trace : Trace) : Nat :=
  (listedKeys strict ids).idxOf (firstKey strict trace)

variable {ids : List String} {trace : Trace}

theorem rank_of_isListed (h : IsListed strict ids trace) :
    rank strict (ids.filterMap TraceId.parse?) (firstKey strict trace) = place strict ids trace :=
  rank_of_mem h

theorem rank_of_not_isListed (h : ¬ IsListed strict ids trace) :
    rank strict (ids.filterMap TraceId.parse?) (firstKey strict trace) = listedCount strict ids := by
  have hnone : (Entries.keys ([] : Entries TraceId Nat)).Nodup := List.nodup_nil
  have hkeys : Entries.keys (ranks strict 0 [] (ids.filterMap TraceId.parse?)) =
      (listedKeys strict ids).eraseDups := keys_ranks hnone 0 _
  rw [rank_of_notMem h, listedCount, ← hkeys, Entries.keys, List.length_map]

/-- When no two of the listed IDs are of one trace, no trace is listed late. -/
theorem place_lt_listedCount
    (hnodup : (listedKeys strict ids).Nodup)
    (h : IsListed strict ids trace) :
    place strict ids trace < listedCount strict ids := by
  rw [listedCount, eraseDups_of_nodup hnodup]
  exact List.idxOf_lt_length_of_mem h

/-! ### Following a list -/

/-- Traces in the order of a list: none is lost or repeated, the listed ones are in the order in
which their keys are first listed, and the traces of one key, and likewise all that are not listed,
are in the order in which they came. -/
structure FollowsList
    (strict : Bool)
    (ids : List String)
    (traces sorted : List Trace) : Prop where
  perm : sorted.Perm traces
  listed : (sorted.filter fun trace => IsListed strict ids trace).Pairwise fun a b =>
    place strict ids a ≤ place strict ids b
  sameKey : ∀ key, (sorted.filter fun trace => firstKey strict trace = key) =
    traces.filter fun trace => firstKey strict trace = key
  unlisted : (sorted.filter fun trace => ¬ IsListed strict ids trace) =
    traces.filter fun trace => ¬ IsListed strict ids trace

/-- Every trace that is listed comes before every trace that is not. -/
def ListedFirst (strict : Bool) (ids : List String) (traces : List Trace) : Prop :=
  traces.Pairwise fun a b => IsListed strict ids b → IsListed strict ids a

/-- Traces in the order of their ranks follow the list. -/
theorem followsList_sortByRank (ids : List String) (traces : List Trace) :
    FollowsList strict ids traces
      (sortByRank (fun trace => rank strict (ids.filterMap TraceId.parse?) (firstKey strict trace))
        traces) where
  perm := perm_sortByRank _ traces
  listed := by
    refine ((pairwise_sortByRank _ traces).filter _).imp_of_mem fun {a b} ha hb hab => ?_
    rwa [rank_of_isListed (of_decide_eq_true (List.mem_filter.mp ha).2),
      rank_of_isListed (of_decide_eq_true (List.mem_filter.mp hb).2)] at hab
  sameKey key := filter_sortByRank _ traces fun trace hkey => by rw [of_decide_eq_true hkey]
  unlisted := filter_sortByRank _ traces fun trace hlisted =>
    rank_of_not_isListed (of_decide_eq_true hlisted)

/-- In the order of their ranks, the listed traces come first exactly when none of them is listed
late, and none that is listed just so late came after one that is not listed. -/
theorem listedFirst_sortByRank_iff (ids : List String) (traces : List Trace) :
    ListedFirst strict ids
        (sortByRank (fun trace => rank strict (ids.filterMap TraceId.parse?) (firstKey strict trace))
          traces) ↔
      (∀ a ∈ traces, ∀ b ∈ traces, IsListed strict ids a → ¬ IsListed strict ids b →
        place strict ids a ≤ listedCount strict ids) ∧
      traces.Pairwise fun a b => IsListed strict ids b →
        place strict ids b = listedCount strict ids → IsListed strict ids a := by
  rw [ListedFirst, pairwise_sortByRank_iff fun _ => rank_of_not_isListed]
  refine and_congr ?_ ?_
  · refine forall₂_congr fun a _ => forall₂_congr fun b _ => forall_congr' fun ha => ?_
    rw [rank_of_isListed ha]
  · refine List.Pairwise.iff fun {a b} => forall_congr' fun hb => ?_
    rw [rank_of_isListed hb]

/-- **Traces follow the list of IDs, but those that are listed late need not come first.**  Whatever
valid IDs are listed, non-empty traces are put in an order that follows the list.  The listed ones
come first exactly when none of them is preceded in the list by more IDs than there are different
traces listed, and those that are preceded by just so many came before all that are not listed.  So
they do whenever no two of the IDs are of one trace. -/
theorem sortByIds_followsList
    {traces : List Trace}
    (hids : ∀ id ∈ ids, (TraceId.parse? id).isSome)
    (hwhole : ∀ trace ∈ traces, trace ≠ []) :
    ∃ sorted, sortByIds strict (ids.map .str) traces = .ok sorted ∧
      FollowsList strict ids traces sorted ∧
      (ListedFirst strict ids sorted ↔
        (∀ a ∈ traces, ∀ b ∈ traces, IsListed strict ids a → ¬ IsListed strict ids b →
          place strict ids a ≤ listedCount strict ids) ∧
        traces.Pairwise fun a b => IsListed strict ids b →
          place strict ids b = listedCount strict ids → IsListed strict ids a) ∧
      ((listedKeys strict ids).Nodup → ListedFirst strict ids sorted) := by
  have hfirst := @listedFirst_sortByRank_iff strict ids traces
  refine ⟨_, sortByIds_eq (mapM_readId_of_isSome hids) hwhole, followsList_sortByRank ids traces,
    hfirst, fun hnodup => hfirst.mpr ⟨?_, ?_⟩⟩
  · exact fun a _ b _ ha _ => Nat.le_of_lt (place_lt_listedCount hnodup ha)
  · refine List.pairwise_of_forall fun a b hb hplace => ?_
    exact absurd hplace (Nat.ne_of_lt (place_lt_listedCount hnodup hb))

/-- A trace of one span, of which nothing but the ID is known. -/
def loneTrace (id : TraceId) : Trace :=
  [⟨id, "1", none, none, none, none, none, none, none, [], [], none, none⟩]

/-- One ID in two spellings, and another one. -/
def twoSpellings : List String :=
  ["a1", "00000000000000a1", "b2"]

/-- The last ID of the list has a trace, which stays behind one that is not listed at all. -/
theorem not_listedFirst_twoSpellings :
    sortByIds true (twoSpellings.map .str) [loneTrace ⟨0, 0xc3⟩, loneTrace ⟨0, 0xb2⟩] =
        .ok [loneTrace ⟨0, 0xc3⟩, loneTrace ⟨0, 0xb2⟩] ∧
      FollowsList true twoSpellings [loneTrace ⟨0, 0xc3⟩, loneTrace ⟨0, 0xb2⟩]
        [loneTrace ⟨0, 0xc3⟩, loneTrace ⟨0, 0xb2⟩] ∧
      ¬ ListedFirst true twoSpellings [loneTrace ⟨0, 0xc3⟩, loneTrace ⟨0, 0xb2⟩] := by
  have hsorted : sortByIds true (twoSpellings.map .str)
      [loneTrace ⟨0, 0xc3⟩, loneTrace ⟨0, 0xb2⟩] =
      .ok [loneTrace ⟨0, 0xc3⟩, loneTrace ⟨0, 0xb2⟩] := by
    rw [sortByIds_eq (mapM_readId_of_isSome (by decide)) (by decide), sortByRank,
      List.mergeSort_of_pairwise (by decide)]
  obtain ⟨sorted, heq, hfollows, hfirst, -⟩ := @sortByIds_followsList true twoSpellings
    [loneTrace ⟨0, 0xc3⟩, loneTrace ⟨0, 0xb2⟩] (by decide) (by decide)
  cases hsorted.symm.trans heq
  exact ⟨hsorted, hfollows, fun h => absurd (hfirst.mp h).2 (by decide)⟩

end Trace
end TraceArchive
