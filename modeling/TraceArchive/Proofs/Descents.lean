import Mathlib.Data.List.Perm.Subperm
import Mathlib.Data.List.Nodup
import TraceArchive.Proofs.Calls

/-!
# Canceling that does not end

Canceling a call is passed on depth first.  Where calls delegate to each other in a circle it never
ends, and some of the calls below are not reached.  A stage that delegates to nothing is reached
all the same, when it is the only one of its call and that was reached.

* `Settled`: canceling has been passed on to all calls below a call, and ended.
* `Trail`: the way that canceling has come, and what it did before it took each turn.
* `Trail.cases`: canceling that goes round in circles comes to nothing new.
* `stage_mem_reached`: with a call its only stage was reached.
-/

set_option autoImplicit false

namespace TraceArchive
namespace Calls

variable {calls : Calls}

/-! ### Canceling that ends -/

/-- Canceling has reached all calls below a call, and none of them is below a call that it
delegates to itself. -/
def Settled (calls : Calls) (reached : List CallId) (id : CallId) : Prop :=
  ∀ below, calls.Below id below →
    below ∈ reached ∧ ∀ stage ∈ (calls.get below).delegates, ¬ calls.Below stage below

theorem Settled.mono
    {reached reached' : List CallId}
    {id : CallId}
    (h : calls.Settled reached id)
    (hsubset : reached ⊆ reached') :
    calls.Settled reached' id :=
  fun below hbelow => ⟨hsubset (h below hbelow).1, (h below hbelow).2⟩

theorem Settled.of_below
    {reached : List CallId}
    {id other : CallId}
    (h : calls.Settled reached id)
    (hother : calls.Below id other) :
    calls.Settled reached other :=
  fun below hbelow => h below (hother.trans hbelow)

/-- When canceling ends after it was passed on to several calls, it has ended for each of them. -/
theorem exists_ends_of_foldl
    {depth : Nat}
    {ids : List CallId}
    {descent : Descent}
    {id : CallId}
    (hends : (ids.foldl (descend calls depth) descent).ends = true)
    (hid : id ∈ ids) :
    ∃ middle, (descend calls depth middle id).ends = true ∧
      (descend calls depth middle id).reached ⊆ (ids.foldl (descend calls depth) descent).reached := by
  induction ids generalizing descent with
  | nil => exact absurd hid List.not_mem_nil
  | cons first rest ih =>
      rw [List.foldl_cons] at hends ⊢
      rcases List.mem_cons.mp hid with rfl | hrest
      · have hcloses := (closes_foldl (closes_descend calls depth) rest _ hends).1
        exact ⟨descent, hcloses.ends, fun other hother => hcloses.old other hother⟩
      · exact ih hends hrest

/-- Canceling that ends within a depth does so below a call one level less deep. -/
theorem exists_ends_of_delegate
    {depth : Nat}
    {descent : Descent}
    {id stage : CallId}
    (hends : (descend calls (depth + 1) descent id).ends = true)
    (hstage : stage ∈ (calls.get id).delegates) :
    ∃ middle, (descend calls depth middle stage).ends = true ∧
      (descend calls depth middle stage).reached ⊆ (descend calls (depth + 1) descent id).reached := by
  rw [descend] at hends ⊢
  by_cases hbefore : descent.ends = true
  · rw [if_pos hbefore] at hends ⊢
    exact exists_ends_of_foldl hends hstage
  · rw [if_neg hbefore] at hends
    exact absurd hends hbefore

theorem exists_ends_of_below
    {depth : Nat}
    {descent : Descent}
    {id below : CallId}
    (hends : (descend calls depth descent id).ends = true)
    (hbelow : calls.Below id below) :
    ∃ depth' ≤ depth, ∃ middle, (descend calls depth' middle below).ends = true ∧
      (descend calls depth' middle below).reached ⊆ (descend calls depth descent id).reached := by
  induction hbelow with
  | refl => exact ⟨depth, Nat.le_refl depth, descent, hends, List.Subset.refl _⟩
  | tail _ hlast ih =>
      obtain ⟨depth', hle, middle, hmiddle, hreached⟩ := ih
      cases depth' with
      | zero => simp [descend] at hmiddle
      | succ depth' =>
          obtain ⟨last, hends', hreached'⟩ := exists_ends_of_delegate hmiddle hlast
          exact ⟨depth', Nat.le_of_succ_le hle, last, hends', List.Subset.trans hreached' hreached⟩

/-- Canceling does not end for a call that is below a call that it delegates to itself. -/
theorem not_below_of_ends
    {depth : Nat}
    {descent : Descent}
    {id stage : CallId}
    (hends : (descend calls depth descent id).ends = true)
    (hstage : stage ∈ (calls.get id).delegates) :
    ¬ calls.Below stage id := by
  intro hbelow
  induction depth using Nat.strongRecOn generalizing descent with
  | ind depth ih =>
      cases depth with
      | zero => simp [descend] at hends
      | succ depth =>
          obtain ⟨middle, hmiddle, _⟩ := exists_ends_of_delegate hends hstage
          obtain ⟨depth', hle, last, hlast, _⟩ := exists_ends_of_below hmiddle hbelow
          exact ih depth' (Nat.lt_succ_of_le hle) hlast

theorem settled_of_ends
    {depth : Nat}
    {descent : Descent}
    {id : CallId}
    (hends : (descend calls depth descent id).ends = true) :
    calls.Settled (descend calls depth descent id).reached id := by
  intro below hbelow
  obtain ⟨depth', _, middle, hmiddle, hreached⟩ := exists_ends_of_below hends hbelow
  refine ⟨hreached (closes_descend calls depth' middle below hmiddle).2, fun stage hstage => ?_⟩
  exact not_below_of_ends hmiddle hstage

/-! ### The way that canceling has come -/

/-- The way that canceling has come to a call, the latest first: at each call on it, canceling has
settled what that delegates to before it took its turn. -/
inductive Trail (calls : Calls) (reached : List CallId) : List CallId → CallId → Prop
  | root (id : CallId) : Trail calls reached [] id
  | turn {trail before after : List CallId} {above id : CallId}
      (htrail : Trail calls reached trail above)
      (hdelegates : (calls.get above).delegates = before ++ id :: after)
      (hbefore : ∀ other ∈ before, calls.Settled reached other) :
      Trail calls reached (above :: trail) id

variable {reached reached' trail : List CallId} {id other : CallId}

theorem Trail.mono
    (h : Trail calls reached trail id)
    (hsubset : reached ⊆ reached') :
    Trail calls reached' trail id := by
  induction h with
  | root id => exact .root id
  | turn _ hdelegates hbefore ih =>
      exact .turn ih hdelegates fun other hother => (hbefore other hother).mono hsubset

/-- From every call on a trail there was a turn, and it led on. -/
theorem Trail.exists_turn
    (h : Trail calls reached trail id)
    (hother : other ∈ trail) :
    ∃ before stage after, (calls.get other).delegates = before ++ stage :: after ∧
      (∀ earlier ∈ before, calls.Settled reached earlier) ∧
        calls.Below stage id ∧ stage ∈ id :: trail := by
  induction h with
  | root id => exact absurd hother List.not_mem_nil
  | @turn trail before after above id _ hdelegates hbefore ih =>
      have hstage : id ∈ (calls.get above).delegates := by simp [hdelegates]
      rcases List.mem_cons.mp hother with rfl | htrail
      · exact ⟨before, id, after, hdelegates, hbefore, .refl, List.mem_cons_self⟩
      · obtain ⟨before', stage, after', hturn, hsettled, hbelow, hmem⟩ := ih htrail
        exact ⟨before', stage, after', hturn, hsettled, hbelow.tail hstage,
          List.mem_cons_of_mem id hmem⟩

/-- A trail that comes to a call twice goes round in the same circle again, unless it turns to
where canceling has ended. -/
theorem Trail.cases
    (h : Trail calls reached trail id) :
    (id :: trail).Nodup ∨ calls.Settled reached id ∨ id ∈ trail := by
  induction h with
  | root id => exact Or.inl (List.nodup_singleton id)
  | @turn trail before after above id htrail hdelegates hbefore ih =>
      have hstage : id ∈ (calls.get above).delegates := by simp [hdelegates]
      rcases ih with hnodup | hsettled | hagain
      · by_cases hmem : id ∈ above :: trail
        · exact Or.inr (Or.inr hmem)
        · exact Or.inl (List.nodup_cons.mpr ⟨hmem, hnodup⟩)
      · exact Or.inr (Or.inl (hsettled.of_below (.single hstage)))
      · -- The trail was here before: it turns to an earlier call now, to the same, or to a later one.
        obtain ⟨before', stage, after', hturn, hsettled, hbelow, hmem⟩ := htrail.exists_turn hagain
        have hlists := hdelegates.symm.trans hturn
        rcases List.append_eq_append_iff.mp hlists with ⟨middle, rfl, hrest⟩ | ⟨middle, rfl, hrest⟩
        · cases middle with
          | nil =>
              cases hrest
              exact Or.inr (Or.inr hmem)
          | cons first others =>
              cases hrest
              exact Or.inr (Or.inl (hsettled id (by simp)))
        · cases middle with
          | nil =>
              cases hrest
              exact Or.inr (Or.inr hmem)
          | cons first others =>
              cases hrest
              have hround := (hbefore stage (by simp) above hbelow).2 stage (by simp [hdelegates])
              exact absurd hbelow hround

/-! ### Only stages -/

/-- Calls that delegate to others exist. -/
theorem lt_size_of_mem_delegates
    {stage : CallId}
    (h : stage ∈ (calls.get id).delegates) :
    id < calls.size := by
  by_contra hle
  rw [get_eq_default (Nat.not_lt.mp hle)] at h
  exact absurd h List.not_mem_nil

theorem length_le_size
    {ids : List CallId}
    (hnodup : ids.Nodup)
    (hlt : ∀ id ∈ ids, id < calls.size) :
    ids.length ≤ calls.size := by
  have hsubset : ids ⊆ List.range calls.size := fun id hid => List.mem_range.mpr (hlt id hid)
  simpa using (List.subperm_of_subset hnodup hsubset).length_le

/-- Canceling that does not end reaches nothing more. -/
theorem reached_descend_of_not_ends
    {descent : Descent}
    (h : descent.ends = false)
    (depth : Nat)
    (id : CallId) :
    (descend calls depth descent id).reached = descent.reached := by
  cases depth with
  | zero => rfl
  | succ depth => rw [descend, if_neg (by simp [h])]

section OnlyStage

variable {above stage : CallId}

/-- A trail that comes to a call with an only stage, before that was reached, is shorter than there
are calls. -/
theorem Trail.length_add_two_le
    (h : Trail calls reached trail above)
    (honly : (calls.get above).delegates = [stage])
    (hleaf : (calls.get stage).delegates = [])
    (hstage : stage < calls.size)
    (hnew : stage ∉ reached) :
    trail.length + 2 ≤ calls.size := by
  have hnotAgain : above ∉ trail := by
    intro hagain
    obtain ⟨before, next, after, hturn, _, hbelow, _⟩ := h.exists_turn hagain
    have hnext : next ∈ (calls.get above).delegates := by simp [hturn]
    rw [honly, List.mem_singleton] at hnext
    subst hnext
    rcases Relation.ReflTransGen.cases_head hbelow with rfl | ⟨other, hother, _⟩
    · exact absurd (honly.symm.trans hleaf) (by simp)
    · exact absurd hother (by simp [hleaf])
  have hleads : ∀ other ∈ above :: trail, (calls.get other).delegates ≠ [] := by
    intro other hother
    rcases List.mem_cons.mp hother with rfl | hmem
    · simp [honly]
    · obtain ⟨before, next, after, hturn, _⟩ := h.exists_turn hmem
      simp [hturn]
  rcases h.cases with hnodup | hsettled | hagain
  · have hnotMem : stage ∉ above :: trail := fun hmem => hleads stage hmem hleaf
    have hlt : ∀ other ∈ stage :: above :: trail, other < calls.size := by
      refine List.forall_mem_cons.mpr ⟨hstage, fun other hother => ?_⟩
      obtain ⟨next, hnext⟩ := List.exists_mem_of_ne_nil _ (hleads other hother)
      exact lt_size_of_mem_delegates hnext
    exact length_le_size (List.nodup_cons.mpr ⟨hnotMem, hnodup⟩) hlt
  · have hbelow : calls.Below above stage := .single (by simp [honly])
    exact absurd (hsettled stage hbelow).1 hnew
  · exact absurd hagain hnotAgain

/-- To pass canceling on to what a call delegates to, one after the other, keeps what passing it on
to each of them keeps. -/
theorem stage_mem_foldl
    {depth : Nat}
    (hone : ∀ {descent : Descent} {next : CallId},
      Trail calls descent.reached (id :: trail) next →
      (above ∈ descent.reached → stage ∈ descent.reached) →
      above ∈ (descend calls depth descent next).reached →
        stage ∈ (descend calls depth descent next).reached)
    {done rest : List CallId}
    {descent : Descent}
    (hdelegates : (calls.get id).delegates = done ++ rest)
    (htrail : Trail calls descent.reached trail id)
    (hdone : descent.ends = true → ∀ other ∈ done, calls.Settled descent.reached other)
    (hbefore : above ∈ descent.reached → stage ∈ descent.reached)
    (habove : above ∈ (rest.foldl (descend calls depth) descent).reached) :
    stage ∈ (rest.foldl (descend calls depth) descent).reached := by
  induction rest generalizing done descent with
  | nil => exact hbefore habove
  | cons next rest ih =>
      rw [List.foldl_cons] at habove ⊢
      have hreached : descent.reached ⊆ (descend calls depth descent next).reached :=
        fun other hother => mem_reached_descend calls depth descent next hother
      have hlater : (calls.get id).delegates = (done ++ [next]) ++ rest := by simpa using hdelegates
      refine ih hlater (htrail.mono hreached) ?_ ?_ habove
      · intro hends
        have hcloses := (closes_descend calls depth descent next hends).1
        refine List.forall_mem_append.mpr ⟨?_, ?_⟩
        · exact fun other hother => (hdone hcloses.ends other hother).mono hreached
        · exact List.forall_mem_singleton.mpr (settled_of_ends hends)
      · cases hends : descent.ends with
        | true => exact hone (.turn htrail hdelegates (hdone hends)) hbefore
        | false =>
            rw [reached_descend_of_not_ends hends]
            exact hbefore

/-- Canceling reaches the only stage of a call that it reaches. -/
theorem stage_mem_descend
    (honly : (calls.get above).delegates = [stage])
    (hleaf : (calls.get stage).delegates = [])
    (hstage : stage < calls.size)
    {depth : Nat}
    {descent : Descent}
    (htrail : Trail calls descent.reached trail id)
    (hdepth : trail.length + depth = calls.size)
    (hbefore : above ∈ descent.reached → stage ∈ descent.reached)
    (habove : above ∈ (descend calls depth descent id).reached) :
    stage ∈ (descend calls depth descent id).reached := by
  induction depth generalizing descent id trail with
  | zero => exact hbefore habove
  | succ depth ih =>
      cases hends : descent.ends with
      | false =>
          rw [reached_descend_of_not_ends hends] at habove ⊢
          exact hbefore habove
      | true =>
          rw [descend, if_pos hends] at habove ⊢
          by_cases hsame : id = above
          · subst hsame
            rw [honly, List.foldl_cons, List.foldl_nil]
            by_cases hold : stage ∈ descent.reached
            · exact mem_reached_descend calls depth _ stage (List.mem_cons_of_mem id hold)
            · -- There is room for one more call on the trail, so canceling is passed on to the stage.
              have hlength := htrail.length_add_two_le honly hleaf hstage hold
              obtain ⟨rest, rfl⟩ : ∃ rest, depth = rest + 1 := ⟨depth - 1, by omega⟩
              rw [descend, if_pos hends, hleaf]
              exact List.mem_cons_self
          · have hlonger : descent.reached ⊆ id :: descent.reached := List.subset_cons_self id _
            have hall : (calls.get id).delegates = [] ++ (calls.get id).delegates := rfl
            refine stage_mem_foldl (fun hnext => ih hnext ?_) hall (htrail.mono hlonger) (by simp) ?_
              habove
            · rw [List.length_cons]
              omega
            · exact fun hmem => hlonger (hbefore ((List.mem_cons.mp hmem).resolve_left (Ne.symm hsame)))

/-- **Canceling passes on to an only stage**, even where it does not end: with a call that delegates
to one other, which delegates to none, it reaches the other. -/
theorem stage_mem_reached
    {root : CallId}
    (honly : (calls.get above).delegates = [stage])
    (hleaf : (calls.get stage).delegates = [])
    (hstage : stage < calls.size)
    (habove : above ∈ (calls.descent root).reached) :
    stage ∈ (calls.descent root).reached :=
  stage_mem_descend honly hleaf hstage (.root root) (Nat.zero_add _) (by simp) habove

end OnlyStage

end Calls
end TraceArchive
