import Mathlib.Data.List.Basic
import Mathlib.Data.List.Induction
import TraceArchive.Entries

/-!
# Laws of entries in order of first insertion

What a look-up finds is one of the entries, and the only one with its key when no key is repeated.

* `get?_eq_some_iff`: look-up as membership.
* `nodup_keys_ofList`: writing pairs one after the other never repeats a key.
* `mem_ofList_iff`: of the pairs that are written, the last one of each key stays.
-/

set_option autoImplicit false

namespace TraceArchive
namespace Entries

universe u v

variable {κ : Type u} {α : Type v} [DecidableEq κ]

theorem mem_of_get?
    {key : κ} {value : α} {entries : Entries κ α}
    (h : get? key entries = some value) :
    (key, value) ∈ entries := by
  induction entries with
  | nil => simp at h
  | cons entry rest ih =>
      by_cases hk : entry.1 = key
      · have hv : entry.2 = value := by simpa [get?, hk] using h
        rw [← hk, ← hv]
        exact List.mem_cons_self
      · have hrest : get? key rest = some value := by simpa [get?, hk] using h
        exact List.mem_cons_of_mem _ (ih hrest)

/-- When no key is repeated, a look-up finds exactly the entries. -/
theorem get?_eq_some_iff
    {entries : Entries κ α}
    (nodup : (keys entries).Nodup)
    {key : κ} {value : α} :
    get? key entries = some value ↔ (key, value) ∈ entries := by
  refine ⟨mem_of_get?, fun hmem => ?_⟩
  induction entries with
  | nil => simp at hmem
  | cons entry rest ih =>
      obtain ⟨hfresh, hrest⟩ := List.nodup_cons.mp nodup
      rcases List.mem_cons.mp hmem with heq | hmem
      · simp [get?, ← heq]
      · have hne : entry.1 ≠ key := by
          rintro rfl
          exact hfresh (List.mem_map.mpr ⟨_, hmem, rfl⟩)
        simpa [get?, hne] using ih hrest hmem

theorem get?_eq_none_iff
    {key : κ} {entries : Entries κ α} :
    get? key entries = none ↔ key ∉ keys entries := by
  induction entries with
  | nil => simp [keys]
  | cons entry rest ih =>
      by_cases hk : entry.1 = key
      · simp [get?, keys, hk]
      · simpa [get?, keys, hk, Ne.symm hk] using ih

@[simp] theorem mem_erase
    {key : κ} {entry : κ × α} {entries : Entries κ α} :
    entry ∈ erase key entries ↔ entry ∈ entries ∧ entry.1 ≠ key := by
  simp [erase]

theorem mem_put
    {key : κ} {value : α} {entry : κ × α} {entries : Entries κ α}
    (h : entry ∈ put key value entries) :
    entry = (key, value) ∨ entry ∈ entries := by
  induction entries with
  | nil => exact Or.inl (List.mem_singleton.mp h)
  | cons first rest ih =>
      rw [put] at h
      split at h
      · rename_i hk
        rcases List.mem_cons.mp h with rfl | hrest
        · exact Or.inl (by rw [hk])
        · exact Or.inr (List.mem_cons_of_mem first hrest)
      · rcases List.mem_cons.mp h with rfl | hmem
        · exact Or.inr List.mem_cons_self
        · rcases ih hmem with heq | hrest
          · exact Or.inl heq
          · exact Or.inr (List.mem_cons_of_mem first hrest)

/-- A write to a new key adds an entry at the end. -/
theorem put_of_notMem
    {key : κ} {entries : Entries κ α}
    (h : key ∉ keys entries)
    (value : α) :
    put key value entries = entries ++ [(key, value)] := by
  induction entries with
  | nil => rfl
  | cons entry rest ih =>
      simp only [keys, List.map_cons, List.mem_cons, not_or] at h
      rw [put, if_neg (Ne.symm h.1), ih h.2]
      rfl

theorem nodup_keys_erase
    {entries : Entries κ α}
    (nodup : (keys entries).Nodup)
    (key : κ) :
    (keys (erase key entries)).Nodup :=
  nodup.sublist (List.filter_sublist.map Prod.fst)

theorem nodup_keys_put
    {entries : Entries κ α}
    (nodup : (keys entries).Nodup)
    (key : κ) (value : α) :
    (keys (put key value entries)).Nodup := by
  rw [keys_put]
  split
  · exact nodup
  · rename_i hnew
    refine List.nodup_append.mpr ⟨nodup, by simp, ?_⟩
    rintro k hk other hother rfl
    exact hnew (List.mem_singleton.mp hother ▸ hk)

/-- A write leaves the entries of the other keys and gives the written one. -/
theorem mem_put_iff
    {key : κ} {value : α} {entry : κ × α} {entries : Entries κ α}
    (nodup : (keys entries).Nodup) :
    entry ∈ put key value entries ↔ entry = (key, value) ∨ entry.1 ≠ key ∧ entry ∈ entries := by
  obtain ⟨k, v⟩ := entry
  rw [← get?_eq_some_iff (nodup_keys_put nodup key value)]
  by_cases hk : k = key
  · subst hk
    simp [get?_put_self, eq_comm]
  · rw [get?_put_of_ne hk, get?_eq_some_iff nodup]
    simp [hk]

theorem get?_append (key : κ) (entries more : Entries κ α) :
    get? key (entries ++ more) = (get? key entries).or (get? key more) := by
  induction entries with
  | nil => simp
  | cons entry rest ih =>
      by_cases hk : entry.1 = key
      · simp [get?, hk]
      · simpa [get?, hk] using ih

theorem get?_map_mk
    (f : κ → α) (key : κ)
    (list : List κ) :
    get? key (list.map fun k => (k, f k)) = if key ∈ list then some (f key) else none := by
  induction list with
  | nil => simp
  | cons first rest ih =>
      by_cases hk : first = key
      · simp [get?, hk]
      · simp [get?, hk, ih, Ne.symm hk]

/-- A write to entries that are a function of their keys is a change of that function. -/
theorem put_map_mk
    (f : κ → α)
    (key : κ) (value : α)
    {list : List κ}
    (nodup : list.Nodup) :
    put key value (list.map fun k => (k, f k)) =
      (if key ∈ list then list else list ++ [key]).map fun k =>
        (k, if k = key then value else f k) := by
  induction list with
  | nil => simp [put]
  | cons first rest ih =>
      obtain ⟨hfresh, hrest⟩ := List.nodup_cons.mp nodup
      by_cases hk : first = key
      · have hothers : ∀ k ∈ rest, k ≠ key := by
          rintro k hmem rfl
          exact hfresh (hk ▸ hmem)
        simp only [put, hk, List.map_cons, if_true, List.mem_cons_self, List.cons.injEq, true_and]
        refine List.map_congr_left fun k hmem => ?_
        rw [if_neg (hothers k hmem)]
      · by_cases hmem : key ∈ rest
        · simp [put, hk, ih hrest, hmem]
        · simp [put, hk, ih hrest, hmem, Ne.symm hk]

theorem ofList_concat (pairs : List (κ × α)) (pair : κ × α) :
    ofList (pairs ++ [pair]) = put pair.1 pair.2 (ofList pairs) := by
  rw [ofList, List.foldl_append]
  rfl

/-- Writing pairs one after the other never repeats a key. -/
theorem nodup_keys_ofList (pairs : List (κ × α)) : (keys (ofList pairs)).Nodup := by
  induction pairs using List.reverseRecOn with
  | nil => exact List.nodup_nil
  | append_singleton pairs pair ih =>
      rw [ofList_concat]
      exact nodup_keys_put ih _ _

@[simp] theorem mem_keys_ofList {key : κ} {pairs : List (κ × α)} :
    key ∈ keys (ofList pairs) ↔ key ∈ keys pairs := by
  induction pairs using List.reverseRecOn with
  | nil => simp [ofList]
  | append_singleton pairs pair ih =>
      have hkeys : keys (pairs ++ [pair]) = keys pairs ++ [pair.1] := by simp [keys]
      rw [ofList_concat, keys_put, hkeys, List.mem_append]
      split
      · rename_i hold
        refine ih.trans (or_iff_left_of_imp fun hkey => ih.mp ?_).symm
        rwa [List.mem_singleton.mp hkey]
      · rw [List.mem_append, ih]

/-- Of the pairs that are written, the last one of each key stays. -/
theorem mem_ofList_iff {pair : κ × α} {pairs : List (κ × α)} :
    pair ∈ ofList pairs ↔
      ∃ before after, pairs = before ++ pair :: after ∧ ∀ later ∈ after, later.1 ≠ pair.1 := by
  induction pairs using List.reverseRecOn with
  | nil => simp [ofList]
  | append_singleton pairs last ih =>
      rw [ofList_concat, mem_put_iff (nodup_keys_ofList pairs), ih]
      constructor
      · rintro (rfl | ⟨hne, before, after, rfl, hlater⟩)
        · exact ⟨pairs, [], rfl, by simp⟩
        · refine ⟨before, after ++ [last], by simp, fun later hmem => ?_⟩
          rcases List.mem_append.mp hmem with hmem | hmem
          · exact hlater later hmem
          · exact List.mem_singleton.mp hmem ▸ Ne.symm hne
      · rintro ⟨before, after, hsplit, hlater⟩
        rcases List.eq_nil_or_concat' after with rfl | ⟨after, final, rfl⟩
        · exact Or.inl (List.singleton_inj.mp (List.append_inj' hsplit rfl).2.symm)
        · rw [← List.cons_append, ← List.append_assoc] at hsplit
          obtain ⟨rfl, hlast⟩ := List.append_inj' hsplit rfl
          obtain rfl : last = final := List.singleton_inj.mp hlast
          obtain ⟨hafter, hfinal⟩ := List.forall_mem_append.mp hlater
          exact Or.inr ⟨Ne.symm (hfinal last (List.mem_singleton_self last)), before, after, rfl, hafter⟩

/-- Writing pairs whose keys differ gives the pairs. -/
theorem ofList_of_nodup
    {pairs : List (κ × α)}
    (nodup : (keys pairs).Nodup) :
    ofList pairs = pairs := by
  induction pairs using List.reverseRecOn with
  | nil => rfl
  | append_singleton pairs pair ih =>
      rw [keys, List.map_append, List.map_singleton] at nodup
      obtain ⟨hpairs, -, hfresh⟩ := List.nodup_append.mp nodup
      have hnew : pair.1 ∉ keys pairs := fun hmem =>
        hfresh _ hmem _ (List.mem_singleton_self _) rfl
      rw [ofList_concat, ih hpairs, put_of_notMem hnew]

end Entries
end TraceArchive
