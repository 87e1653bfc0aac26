import Mathlib.Data.List.Forall2

/-!
# Lists and checks that may fail

Mapping a list or filtering it with a function that may fail, and lists without their repeats.

* `bind_eq_ok_iff`, `mapM_eq_ok_iff`: a value of several steps is one of each of them.
* `mapM_eq_ok`, `filterM_eq_ok`, `foldlM_eq_ok`: without a failure this is plain mapping, filtering
  and folding.
-/

set_option autoImplicit false

namespace TraceArchive

universe u

variable {ε : Type u} {α β : Type}

theorem bind_eq_ok_iff {x : Except ε α} {next : α → Except ε β} {b : β} :
    x >>= next = .ok b ↔ ∃ a, x = .ok a ∧ next a = .ok b := by
  cases x <;> simp [bind, Except.bind]

theorem mapError_eq_ok_iff {ε' : Type u} {x : Except ε α} {f : ε → ε'} {a : α} :
    x.mapError f = .ok a ↔ x = .ok a := by
  cases x <;> simp [Except.mapError]

theorem map_eq_ok_iff {x : Except ε α} {f : α → β} {b : β} :
    x.map f = .ok b ↔ ∃ a, x = .ok a ∧ f a = b := by
  cases x <;> simp [Except.map]

theorem exists_error_iff {x : Except ε α} :
    (∃ error, x = .error error) ↔ ∀ a, x ≠ .ok a := by
  cases x <;> simp

theorem ok_bind (a : α) (next : α → Except ε β) : (Except.ok a >>= next) = next a := rfl

theorem mapM_eq_ok
    {f : α → Except ε β} {g : α → β}
    {list : List α}
    (h : ∀ a ∈ list, f a = .ok (g a)) :
    list.mapM f = .ok (list.map g) := by
  induction list with
  | nil => rfl
  | cons a rest ih =>
      rw [List.mapM_cons, h a List.mem_cons_self,
        ih fun b hmem => h b (List.mem_cons_of_mem a hmem)]
      rfl

/-- Mapping a list with a function that may fail gives just what it gives for each item. -/
theorem mapM_eq_ok_iff {f : α → Except ε β} {list : List α} {values : List β} :
    list.mapM f = .ok values ↔ List.Forall₂ (fun a b => f a = .ok b) list values := by
  induction list generalizing values with
  | nil =>
      cases values with
      | nil => exact ⟨fun _ => .nil, fun _ => rfl⟩
      | cons value rest => exact ⟨nofun, nofun⟩
  | cons a list ih =>
      rw [List.mapM_cons]
      simp only [bind_eq_ok_iff, pure, Except.pure, Except.ok.injEq, ih]
      constructor
      · rintro ⟨value, hvalue, rest, hrest, rfl⟩
        exact .cons hvalue hrest
      · rintro (_ | ⟨hvalue, hrest⟩)
        exact ⟨_, hvalue, _, hrest, rfl⟩

/-- Errors are renamed step by step. -/
theorem mapError_bind {ε' : Type u} {f : ε → ε'}
    (x : Except ε α) (next : α → Except ε β) :
    (x >>= next).mapError f = x.mapError f >>= fun a => (next a).mapError f := by
  cases x <;> rfl

theorem mapError_map {ε' : Type u} {f : ε → ε'}
    (x : Except ε α) (g : α → β) :
    (x.map g).mapError f = (x.mapError f).map g := by
  cases x <;> rfl

theorem mapError_mapM {ε' : Type u} {f : ε → ε'}
    (list : List α) (g : α → Except ε β) :
    (list.mapM g).mapError f = list.mapM fun a => (g a).mapError f := by
  induction list with
  | nil => rfl
  | cons a rest ih =>
      rw [List.mapM_cons, List.mapM_cons, mapError_bind]
      simp only [mapError_bind, ih]
      rfl

/-- A fold does not fail when its steps do not fail under an invariant that they keep. -/
theorem foldlM_eq_ok
    (invariant : β → Prop)
    {step : β → α → Except ε β} {plain : β → α → β}
    (hstep : ∀ b, invariant b → ∀ a, step b a = .ok (plain b a) ∧ invariant (plain b a))
    (list : List α) {b : β}
    (h : invariant b) :
    list.foldlM step b = .ok (list.foldl plain b) := by
  induction list generalizing b with
  | nil => rfl
  | cons a rest ih =>
      obtain ⟨heq, hkept⟩ := hstep b h a
      rw [List.foldlM_cons, heq, ok_bind, ih hkept, List.foldl_cons]

theorem filterAuxM_eq
    (p : α → Except ε Bool)
    (list found : List α) :
    list.filterAuxM p found = (list.filterM p).map (·.reverse ++ found) := by
  induction list generalizing found with
  | nil => rfl
  | cons a rest ih =>
      simp only [List.filterM, List.filterAuxM, bind_assoc]
      cases hp : p a with
      | error failure => rfl
      | ok keep =>
          show rest.filterAuxM p (cond keep (a :: found) found) =
            (rest.filterAuxM p (cond keep [a] []) >>= fun as => pure as.reverse).map
              (·.reverse ++ found)
          rw [ih, ih (cond keep [a] [])]
          cases rest.filterM p with
          | error failure => rfl
          | ok rest => cases keep <;> simp [Except.map, bind, Except.bind, pure, Except.pure]

theorem filterM_cons
    (p : α → Except ε Bool)
    (a : α) (rest : List α) :
    (a :: rest).filterM p = (do
      let keep ← p a
      let rest ← rest.filterM p
      return if keep then a :: rest else rest) := by
  rw [List.filterM, List.filterAuxM]
  cases hp : p a with
  | error failure => rfl
  | ok keep =>
      show (rest.filterAuxM p (cond keep [a] []) >>= fun as => pure as.reverse) =
        (rest.filterM p >>= fun rest => pure (if keep then a :: rest else rest))
      rw [filterAuxM_eq]
      cases rest.filterM p with
      | error failure => rfl
      | ok rest => cases keep <;> simp [Except.map, bind, Except.bind, pure, Except.pure]

theorem filterM_eq_ok
    {p : α → Except ε Bool} {q : α → Bool}
    {list : List α}
    (h : ∀ a ∈ list, p a = .ok (q a)) :
    list.filterM p = .ok (list.filter q) := by
  induction list with
  | nil => rfl
  | cons a rest ih =>
      rw [filterM_cons, h a List.mem_cons_self,
        ih fun b hmem => h b (List.mem_cons_of_mem a hmem), List.filter_cons]
      rfl

theorem filterM_map_eq_ok
    {p : β → Except ε Bool} {f : α → β} {q : α → Bool}
    {list : List α}
    (h : ∀ a ∈ list, p (f a) = .ok (q a)) :
    (list.map f).filterM p = .ok ((list.filter q).map f) := by
  induction list with
  | nil => rfl
  | cons a rest ih =>
      rw [List.map_cons, filterM_cons, h a List.mem_cons_self,
        ih fun b hmem => h b (List.mem_cons_of_mem a hmem), List.filter_cons]
      cases q a <;> rfl

/-- Renaming the failures of a check renames those of a filter. -/
theorem filterM_mapError
    {ε' : Type u} (rename : ε → ε')
    (p : α → Except ε Bool)
    (list : List α) :
    list.filterM (fun a => (p a).mapError rename) = (list.filterM p).mapError rename := by
  induction list with
  | nil => rfl
  | cons a rest ih =>
      rw [filterM_cons, filterM_cons, ih]
      cases p a with
      | error failure => rfl
      | ok keep => cases rest.filterM p <;> rfl

/-- What a filter keeps was in the list and passed the check. -/
theorem mem_of_filterM
    {p : α → Except ε Bool}
    {list kept : List α}
    (h : list.filterM p = .ok kept)
    {a : α}
    (hmem : a ∈ kept) :
    a ∈ list := by
  induction list generalizing kept with
  | nil =>
      cases h
      exact hmem
  | cons b rest ih =>
      rw [filterM_cons] at h
      cases hp : p b with
      | error failure =>
          rw [hp] at h
          cases h
      | ok keep =>
          cases hrest : rest.filterM p with
          | error failure =>
              rw [hp, hrest] at h
              cases h
          | ok others =>
              rw [hp, hrest] at h
              cases h
              cases keep with
              | true =>
                  rcases List.mem_cons.mp hmem with rfl | hmem
                  · exact List.mem_cons_self
                  · exact List.mem_cons_of_mem b (ih hrest hmem)
              | false => exact List.mem_cons_of_mem b (ih hrest hmem)

theorem nodup_eraseDups
    [BEq α] [LawfulBEq α]
    (list : List α) :
    list.eraseDups.Nodup := by
  match list with
  | [] => exact List.nodup_nil
  | a :: rest =>
      rw [List.eraseDups_cons, List.nodup_cons]
      exact ⟨by simp, nodup_eraseDups _⟩
termination_by list.length
decreasing_by
  have := List.length_filter_le (fun b => !b == a) rest
  simp only [List.length_cons]
  omega

theorem eraseDups_concat
    [BEq α] [LawfulBEq α] [DecidableEq α]
    (list : List α) (a : α) :
    (list ++ [a]).eraseDups = if a ∈ list then list.eraseDups else list.eraseDups ++ [a] := by
  rw [List.eraseDups_append]
  split
  · rename_i hmem
    simp [List.removeAll, hmem]
  · rename_i hmem
    simp [List.removeAll, hmem, List.eraseDups_cons]

/-- An injective function keeps what is a repeat and what is not. -/
theorem eraseDups_map
    [DecidableEq α] [DecidableEq β]
    {f : α → β} {list : List α}
    (hinj : ∀ a ∈ list, ∀ b ∈ list, f a = f b → a = b) :
    (list.map f).eraseDups = list.eraseDups.map f := by
  match list with
  | [] => rfl
  | a :: rest =>
      have hfilter : (rest.map f).filter (fun b => !b == f a) =
          (rest.filter fun b => !b == a).map f := by
        rw [List.filter_map]
        congr 1
        refine List.filter_congr fun b hmem => ?_
        have hiff : f b = f a ↔ b = a :=
          ⟨hinj b (List.mem_cons_of_mem a hmem) a List.mem_cons_self, congrArg f⟩
        rw [Bool.eq_iff_iff]
        simp [hiff]
      have hrest : ((rest.filter fun b => !b == a).map f).eraseDups =
          ((rest.filter fun b => !b == a).eraseDups).map f :=
        eraseDups_map fun b hb c hc => hinj b (List.mem_cons_of_mem a (List.mem_filter.mp hb).1)
          c (List.mem_cons_of_mem a (List.mem_filter.mp hc).1)
      rw [List.map_cons, List.eraseDups_cons, List.eraseDups_cons, hfilter, hrest, List.map_cons]
termination_by list.length
decreasing_by
  have := List.length_filter_le (fun b => !b == a) rest
  simp only [List.length_cons]
  omega

theorem eraseDups_of_nodup
    [BEq α] [LawfulBEq α]
    {list : List α}
    (nodup : list.Nodup) :
    list.eraseDups = list := by
  induction list with
  | nil => rfl
  | cons a rest ih =>
      obtain ⟨hfresh, hrest⟩ := List.nodup_cons.mp nodup
      have hkeep : rest.filter (fun b => !b == a) = rest := by
        refine List.filter_eq_self.mpr fun b hmem => ?_
        simpa using fun heq : b = a => hfresh (heq ▸ hmem)
      rw [List.eraseDups_cons, hkeep, ih hrest]

end TraceArchive
