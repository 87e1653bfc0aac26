import Mathlib.Logic.Relation
import TraceArchive.Call.Calls

/-!
# What happens to a collection of calls

Calls are only ever added at the end, and changed one at a time.  Canceling a call reaches every
call below it, if it comes to an end at all.

* `get_push_of_lt`, `get_modify`: which calls a change leaves alone.
* `Adds`, `added_add`: the calls of a plan are new, and the old ones stay as they are.
* `clone_eq_add`: a clone consists of new calls for the plan of the original.
* `self_mem_reached_descent`: canceling reaches the call itself, whether it ends or not.
* `delegates_mem_reached`: what canceling reaches is closed under delegation, if it ends.
* `get_cancel`: a canceled collection differs in the flags of the reached calls only.
* `Resembles`: calls that canceling goes down in the same way.
* `Marks`, `marks_cancel`: calls were canceled, and with each of them all calls below it.
-/

set_option autoImplicit false

namespace TraceArchive

/-- The plan of a composed call. -/
def Plan.IsComposed : Plan → Prop
  | .mapped _ _ => True
  | .flatMapped _ _ => True
  | _ => False

/-- The plan of the first stage of a composed call. -/
def Plan.first? : Plan → Option Plan
  | .mapped first _ => some first
  | .flatMapped first _ => some first
  | _ => none

theorem Plan.isComposed_of_first?
    {plan first : Plan}
    (h : plan.first? = some first) :
    plan.IsComposed := by
  cases plan with
  | mapped _ _ => trivial
  | flatMapped _ _ => trivial
  | _ => cases h

@[simp] theorem Call.plan_markCanceled (call : Call) :
    call.markCanceled.plan = call.plan := by
  unfold markCanceled
  split <;> rfl

@[simp] theorem Call.state_markCanceled (call : Call) :
    call.markCanceled.state = call.state := by
  unfold markCanceled
  split <;> rfl

@[simp] theorem Call.first_markCanceled (call : Call) :
    call.markCanceled.first = call.first := by
  unfold markCanceled
  split <;> rfl

@[simp] theorem Call.next_markCanceled (call : Call) :
    call.markCanceled.next = call.next := by
  unfold markCanceled
  split <;> rfl

@[simp] theorem Call.canceled_markCanceled (call : Call) :
    call.markCanceled.canceled = (call.canceled || !call.plan.ignoresCancel) := by
  unfold markCanceled
  split <;> simp_all

@[simp] theorem Call.markCanceled_markCanceled (call : Call) :
    call.markCanceled.markCanceled = call.markCanceled := by
  unfold markCanceled
  split <;> simp_all

theorem Call.delegates_congr
    {call call' : Call}
    (hplan : call'.plan = call.plan)
    (hfirst : call'.first = call.first)
    (hnext : call'.next = call.next) :
    call'.delegates = call.delegates := by
  rw [delegates, delegates, hplan, hfirst, hnext]

theorem Call.mem_delegates
    {call : Call}
    {id : CallId}
    (h : call.plan.ignoresCancel = false) :
    id ∈ call.delegates ↔ call.first = some id ∨ call.next = some id := by
  simp [delegates, h]

namespace Calls

theorem get_eq_default
    {calls : Calls}
    {id : CallId}
    (h : calls.size ≤ id) :
    calls.get id = default := by
  simp [get, Array.getD_eq_getD_getElem?, Array.getElem?_eq_none h]

theorem get_modify
    {calls : Calls}
    {id : CallId}
    (hid : id < calls.size)
    (change : Call → Call)
    (other : CallId) :
    Calls.get (calls.modify id change) other =
      if other = id then change (calls.get other) else calls.get other := by
  simp only [get, Array.getD_eq_getD_getElem?, Array.getElem?_modify]
  by_cases h : id = other
  · subst h
    simp [hid]
  · simp [h, Ne.symm h]

theorem get_modify_of_ne
    {calls : Calls}
    {id other : CallId}
    (h : other ≠ id)
    (change : Call → Call) :
    Calls.get (calls.modify id change) other = calls.get other := by
  simp [get, Array.getD_eq_getD_getElem?, Array.getElem?_modify, Ne.symm h]

/-- What a change leaves alone in every call is left alone in a collection. -/
theorem field_modify
    {α : Type}
    (field : Call → α)
    (change : Call → Call)
    (hfield : ∀ call, field (change call) = field call)
    (calls : Calls)
    (own id : CallId) :
    field (Calls.get (calls.modify own change) id) = field (calls.get id) := by
  by_cases hid : id = own
  · subst hid
    by_cases hlt : id < calls.size
    · rw [get_modify hlt, if_pos rfl, hfield]
    · rw [get_eq_default (by simpa using hlt), get_eq_default (by simpa using hlt)]
  · rw [get_modify_of_ne hid]

theorem get_setState
    {α : Type}
    (field : Call → α)
    (state : CallState)
    (hfield : ∀ call : Call, field { call with state := state } = field call)
    (calls : Calls)
    (own id : CallId) :
    field (get (calls.modify own fun call => { call with state := state }) id) =
      field (calls.get id) :=
  field_modify field (fun call => { call with state := state }) hfield calls own id

/-! ### New calls -/

theorem get_push_of_lt
    {calls : Calls}
    {id : CallId}
    (h : id < calls.size)
    (plan : Plan)
    (first : Option CallId) :
    (calls.push plan first).1.get id = calls.get id := by
  simp [get, push, Array.getElem?_push, Nat.ne_of_lt h, Array.getD_eq_getD_getElem?]

theorem get_push_self
    (calls : Calls)
    (plan : Plan)
    (first : Option CallId) :
    (calls.push plan first).1.get calls.size = Call.fresh plan first := by
  simp [get, push, Array.getD_eq_getD_getElem?]

@[simp] theorem size_push
    (calls : Calls)
    (plan : Plan)
    (first : Option CallId) :
    Array.size (calls.push plan first).1 = calls.size + 1 := by
  simp [push]

/-- A composed call stands on a call for the plan of its first stage, which was made before it. -/
def IsStaged (calls : Calls) (id : CallId) : Prop :=
  ∀ first, (calls.get id).plan.first? = some first →
    ∃ stage < id, (calls.get id).first = some stage ∧ (calls.get stage).plan = first

/-- A call was made for a plan, and nothing has become of it; its first stage, if the plan has one,
was made before it. -/
def IsFresh (calls : Calls) (id : CallId) : Prop :=
  ∃ plan first, calls.get id = Call.fresh plan first ∧
    (∀ stage, first = some stage → stage < id) ∧ calls.IsStaged id

theorem IsStaged.congr
    {calls calls' : Calls}
    {id : CallId}
    (h : calls.IsStaged id)
    (hplan : ∀ other ≤ id, (calls'.get other).plan = (calls.get other).plan)
    (hfirst : (calls'.get id).first = (calls.get id).first) :
    calls'.IsStaged id := by
  intro first hcomposed
  rw [hplan id (Nat.le_refl id)] at hcomposed
  obtain ⟨stage, hlt, hstage, hsame⟩ := h first hcomposed
  exact ⟨stage, hlt, hfirst.trans hstage, (hplan stage (Nat.le_of_lt hlt)).trans hsame⟩

/-- A collection has more calls than another, all of them new, and the old ones unchanged. -/
structure Adds (calls calls' : Calls) : Prop where
  size : calls.size ≤ calls'.size
  old : ∀ id < calls.size, calls'.get id = calls.get id
  fresh : ∀ id < calls'.size, calls.size ≤ id → calls'.IsFresh id

theorem Adds.refl (calls : Calls) : Adds calls calls :=
  ⟨Nat.le_refl _, fun _ _ => rfl, fun _ hlt hle => absurd hlt (Nat.not_lt.mpr hle)⟩

theorem Adds.trans
    {calls calls' calls'' : Calls}
    (h : Adds calls calls')
    (h' : Adds calls' calls'') :
    Adds calls calls'' := by
  refine ⟨Nat.le_trans h.size h'.size, ?_, ?_⟩
  · intro id hid
    rw [h'.old id (Nat.lt_of_lt_of_le hid h.size), h.old id hid]
  · intro id hlt hle
    by_cases hid : id < calls'.size
    · obtain ⟨plan, first, hget, hlt, hstaged⟩ := h.fresh id hid hle
      refine ⟨plan, first, by rw [h'.old id hid, hget], hlt, hstaged.congr ?_ ?_⟩
      · exact fun other hother => congrArg Call.plan (h'.old other (Nat.lt_of_le_of_lt hother hid))
      · exact congrArg Call.first (h'.old id hid)
    · exact h'.fresh id hlt (Nat.not_lt.mp hid)

theorem adds_push
    {calls : Calls}
    {plan : Plan}
    {first : Option CallId}
    (hfirst : ∀ stage, first = some stage → stage < calls.size)
    (hstaged : ∀ inner, plan.first? = some inner →
      ∃ stage, first = some stage ∧ (calls.get stage).plan = inner) :
    Adds calls (calls.push plan first).1 := by
  refine ⟨by simp, fun id hid => get_push_of_lt hid plan first, ?_⟩
  intro id hlt hle
  have hid : id = calls.size := by
    simp only [size_push] at hlt
    omega
  subst hid
  refine ⟨plan, first, get_push_self calls plan first, hfirst, fun inner hinner => ?_⟩
  rw [get_push_self] at hinner ⊢
  obtain ⟨stage, hstage, hplan⟩ := hstaged inner hinner
  exact ⟨stage, hfirst stage hstage, hstage, by rw [get_push_of_lt (hfirst stage hstage), hplan]⟩

/-- A call may be composed of one that is there. -/
theorem adds_push_some
    {calls : Calls}
    {plan : Plan}
    {first : CallId}
    (hfirst : first < calls.size)
    (hplan : plan.first? = some (calls.get first).plan) :
    Adds calls (calls.push plan (some first)).1 := by
  refine adds_push ?_ fun inner hinner => ⟨first, rfl, ?_⟩
  · rintro stage ⟨rfl⟩
    exact hfirst
  · exact Option.some.inj (hplan.symm.trans hinner)

/-- A plan was added as its own call, which comes last, and as the calls of its stages. -/
structure Added (calls : Calls) (plan : Plan) (added : Calls × CallId) : Prop where
  adds : Adds calls added.1
  le : calls.size ≤ added.2
  last : added.2 + 1 = added.1.size
  plan : (added.1.get added.2).plan = plan

theorem Added.lt
    {calls : Calls}
    {plan : Plan}
    {added : Calls × CallId}
    (h : Added calls plan added) :
    added.2 < added.1.size :=
  h.last ▸ Nat.lt_succ_self added.2

theorem added_leaf
    (calls : Calls)
    {plan : Plan}
    (hleaf : plan.first? = none) :
    Added calls plan (calls.push plan none) where
  adds := adds_push (by simp) (by simp [hleaf])
  le := Nat.le_refl _
  last := (size_push calls plan none).symm
  plan := congrArg Call.plan (get_push_self calls plan none)

theorem Added.compose
    {calls : Calls}
    {first : Plan}
    {inner : Calls × CallId}
    (h : Added calls first inner)
    {plan : Plan}
    (hplan : plan.first? = some first) :
    Added calls plan (inner.1.push plan (some inner.2)) where
  adds := h.adds.trans (adds_push_some h.lt (hplan.trans (congrArg some h.plan.symm)))
  le := h.adds.size
  last := (size_push inner.1 plan (some inner.2)).symm
  plan := congrArg Call.plan (get_push_self inner.1 plan (some inner.2))

theorem added_add (calls : Calls) (plan : Plan) : Added calls plan (calls.add plan) := by
  fun_induction Calls.add calls plan with
  | case1 first mapper inner ih => exact ih.compose rfl
  | case2 first mapper inner ih => exact ih.compose rfl
  | case3 plan hmapped hflat =>
      refine added_leaf calls ?_
      cases plan with
      | mapped first mapper => exact absurd rfl (hmapped first mapper)
      | flatMapped first mapper => exact absurd rfl (hflat first mapper)
      | _ => rfl

/-! ### Clones -/

/-- A clone of a call is a new call for its plan, if the calls that it is composed of are there. -/
theorem cloneWithin_eq_add
    {calls : Calls}
    (hstaged : ∀ id < calls.size, calls.IsStaged id)
    {depth : Nat}
    {id : CallId}
    (hid : id < calls.size)
    (hdepth : id ≤ depth) :
    cloneWithin calls depth id = calls.add (calls.get id).plan := by
  induction depth generalizing id with
  | zero =>
      -- The oldest call of all is composed of none.
      have hnone : (calls.get id).plan.first? = none := by
        refine Option.eq_none_iff_forall_ne_some.mpr fun first hfirst => ?_
        obtain ⟨stage, hlt, _⟩ := hstaged id hid first hfirst
        exact absurd (Nat.lt_of_lt_of_le hlt hdepth) (Nat.not_lt_zero stage)
      rw [cloneWithin]
      cases hplan : (calls.get id).plan with
      | mapped first mapper => simp [hplan, Plan.first?] at hnone
      | flatMapped first mapper => simp [hplan, Plan.first?] at hnone
      | _ => rfl
  | succ depth ih =>
      have hinner : ∀ first, (calls.get id).plan.first? = some first →
          ∃ stage, (calls.get id).first = some stage ∧
            cloneWithin calls depth stage = calls.add first := by
        intro first hfirst
        obtain ⟨stage, hlt, hstage, hplan⟩ := hstaged id hid first hfirst
        have hle : stage ≤ depth := Nat.le_of_lt_succ (Nat.lt_of_lt_of_le hlt hdepth)
        exact ⟨stage, hstage, hplan ▸ ih (Nat.lt_trans hlt hid) hle⟩
      rw [cloneWithin]
      cases hplan : (calls.get id).plan with
      | mapped first mapper =>
          obtain ⟨stage, hstage, hclone⟩ := hinner first (hplan ▸ rfl)
          simp only [hstage, hclone, (added_add calls first).plan, add]
      | flatMapped first mapper =>
          obtain ⟨stage, hstage, hclone⟩ := hinner first (hplan ▸ rfl)
          simp only [hstage, hclone, (added_add calls first).plan, add]
      | _ => rfl

theorem clone_eq_add
    {calls : Calls}
    (hstaged : ∀ id < calls.size, calls.IsStaged id)
    {id : CallId}
    (hid : id < calls.size) :
    calls.clone id = calls.add (calls.get id).plan :=
  cloneWithin_eq_add hstaged hid (Nat.le_refl id)

/-! ### Canceling -/

/-- What canceling has reached after it was passed on is closed under delegation, but for what it
had reached before. -/
structure Closes (calls : Calls) (before after : Descent) : Prop where
  ends : before.ends = true
  old : ∀ id ∈ before.reached, id ∈ after.reached
  closed : ∀ id ∈ after.reached, id ∈ before.reached ∨
    ∀ below ∈ (calls.get id).delegates, below ∈ after.reached

theorem Closes.trans
    {calls : Calls}
    {first second third : Descent}
    (h : Closes calls first second)
    (h' : Closes calls second third) :
    Closes calls first third := by
  refine ⟨h.ends, fun id hid => h'.old id (h.old id hid), ?_⟩
  intro id hid
  rcases h'.closed id hid with hold | hbelow
  · rcases h.closed id hold with hfirst | hbelow
    · exact Or.inl hfirst
    · exact Or.inr fun below hmem => h'.old below (hbelow below hmem)
  · exact Or.inr hbelow

/-- Passing canceling on to several calls closes over each of them. -/
theorem closes_foldl
    {calls : Calls}
    {depth : Nat}
    (hone : ∀ (descent : Descent) (id : CallId),
      (descend calls depth descent id).ends = true →
        Closes calls descent (descend calls depth descent id) ∧
          id ∈ (descend calls depth descent id).reached)
    (ids : List CallId)
    (descent : Descent)
    (hends : (ids.foldl (descend calls depth) descent).ends = true) :
    Closes calls descent (ids.foldl (descend calls depth) descent) ∧
      ∀ id ∈ ids, id ∈ (ids.foldl (descend calls depth) descent).reached := by
  induction ids generalizing descent with
  | nil => exact ⟨⟨hends, fun _ hid => hid, fun _ hid => Or.inl hid⟩, by simp⟩
  | cons id rest ih =>
      rw [List.foldl_cons] at hends ⊢
      obtain ⟨hrest, hmem⟩ := ih (descend calls depth descent id) hends
      obtain ⟨hfirst, hid⟩ := hone descent id hrest.ends
      refine ⟨hfirst.trans hrest, ?_⟩
      rintro other (_ | ⟨_, hother⟩)
      · exact hrest.old id hid
      · exact hmem other hother

theorem closes_descend
    (calls : Calls)
    (depth : Nat)
    (descent : Descent)
    (id : CallId)
    (hends : (descend calls depth descent id).ends = true) :
    Closes calls descent (descend calls depth descent id) ∧
      id ∈ (descend calls depth descent id).reached := by
  induction depth generalizing descent id with
  | zero => simp [descend] at hends
  | succ depth ih =>
      rw [descend] at hends ⊢
      by_cases hbefore : descent.ends = true
      · rw [if_pos hbefore] at hends ⊢
        obtain ⟨hfold, hbelow⟩ := closes_foldl ih (calls.get id).delegates _ hends
        have hid := hfold.old id List.mem_cons_self
        refine ⟨⟨hbefore, ?_, ?_⟩, hid⟩
        · exact fun other hother => hfold.old other (List.mem_cons_of_mem id hother)
        · intro other hother
          rcases hfold.closed other hother with hmem | hclosed
          · rcases List.mem_cons.mp hmem with rfl | hold
            · exact Or.inr hbelow
            · exact Or.inl hold
          · exact Or.inr hclosed
      · rw [if_neg hbefore] at hends
        exact absurd hends hbefore

theorem mem_reached_foldl
    {calls : Calls}
    {depth : Nat}
    {other : CallId}
    (hone : ∀ (descent : Descent) (id : CallId), other ∈ descent.reached →
      other ∈ (descend calls depth descent id).reached)
    (ids : List CallId)
    {descent : Descent}
    (h : other ∈ descent.reached) :
    other ∈ (ids.foldl (descend calls depth) descent).reached := by
  induction ids generalizing descent with
  | nil => exact h
  | cons first rest ih => exact ih (hone descent first h)

/-- Whatever was reached stays so. -/
theorem mem_reached_descend
    (calls : Calls)
    (depth : Nat)
    {other : CallId}
    (descent : Descent)
    (id : CallId)
    (h : other ∈ descent.reached) :
    other ∈ (descend calls depth descent id).reached := by
  induction depth generalizing descent id with
  | zero => exact h
  | succ depth ih =>
      rw [descend]
      split
      · exact mem_reached_foldl ih _ (List.mem_cons_of_mem id h)
      · exact h

/-- Canceling reaches the canceled call, whether it ends or not. -/
theorem self_mem_reached_descent
    {calls : Calls}
    {id : CallId}
    (hid : id < calls.size) :
    id ∈ (calls.descent id).reached := by
  obtain ⟨depth, hdepth⟩ := Nat.exists_eq_succ_of_ne_zero (Nat.ne_of_gt (Nat.zero_lt_of_lt hid))
  rw [descent, hdepth, descend, if_pos rfl]
  exact mem_reached_foldl (mem_reached_descend calls depth) _ List.mem_cons_self

/-- Canceling that ends reaches all that a reached call delegates to. -/
theorem delegates_mem_reached
    {calls : Calls}
    {id above below : CallId}
    (hends : calls.cancelEnds id = true)
    (habove : above ∈ (calls.descent id).reached)
    (hbelow : below ∈ (calls.get above).delegates) :
    below ∈ (calls.descent id).reached := by
  have hcloses := (closes_descend calls calls.size ⟨[], true⟩ id hends).1
  rcases hcloses.closed above habove with hnone | hclosed
  · exact absurd hnone (by simp)
  · exact hclosed below hbelow

@[simp] theorem size_cancel (calls : Calls) (id : CallId) :
    Array.size (calls.cancel id) = calls.size := by
  unfold cancel
  induction (calls.descent id).reached generalizing calls with
  | nil => rfl
  | cons other rest ih => rw [List.foldl_cons, ih, Array.size_modify]

/-- A call after several were told to cancel. -/
theorem get_foldl_markCanceled
    (ids : List CallId)
    {calls : Calls}
    {id : CallId}
    (hid : id < calls.size) :
    get (ids.foldl (fun calls id => Array.modify calls id Call.markCanceled) calls) id =
      if id ∈ ids then (calls.get id).markCanceled else calls.get id := by
  induction ids generalizing calls with
  | nil => simp
  | cons other rest ih =>
      rw [List.foldl_cons, ih (by simpa using hid)]
      by_cases hsame : id = other
      · subst hsame
        simp [get_modify hid]
      · simp [get_modify_of_ne hsame, hsame]

theorem get_cancel
    {calls : Calls}
    {id : CallId}
    (hid : id < calls.size)
    (canceled : CallId) :
    (calls.cancel canceled).get id =
      if id ∈ (calls.descent canceled).reached then (calls.get id).markCanceled
      else calls.get id :=
  get_foldl_markCanceled (calls.descent canceled).reached hid

/-- A call is another one, or the other delegates to it, directly or through others. -/
def Below (calls : Calls) : CallId → CallId → Prop :=
  Relation.ReflTransGen fun above below => below ∈ (calls.get above).delegates

/-- No call delegates to itself, directly or through others: canceling any of them ends. -/
def IsForest (calls : Calls) : Prop :=
  ∀ id < calls.size, calls.cancelEnds id = true

theorem below_mem_reached
    {calls : Calls}
    {id above below : CallId}
    (hends : calls.cancelEnds id = true)
    (habove : above ∈ (calls.descent id).reached)
    (hbelow : calls.Below above below) :
    below ∈ (calls.descent id).reached := by
  induction hbelow with
  | refl => exact habove
  | tail _ hstep ih => exact delegates_mem_reached hends ih hstep

/-- Canceling a call that does not exist reaches no other. -/
theorem eq_of_mem_reached
    {calls : Calls}
    {id other : CallId}
    (hid : calls.size ≤ id)
    (hother : other ∈ (calls.descent id).reached) :
    other = id := by
  have hdelegates : (calls.get id).delegates = [] := by
    rw [get_eq_default hid]
    rfl
  unfold descent at hother
  cases hsize : calls.size with
  | zero => simp [hsize, descend] at hother
  | succ depth => simpa [hsize, descend, hdelegates] using hother

theorem descend_congr
    {calls calls' : Calls}
    (h : ∀ id, (calls'.get id).delegates = (calls.get id).delegates)
    (depth : Nat) :
    descend calls' depth = descend calls depth := by
  induction depth with
  | zero => rfl
  | succ depth ih =>
      funext descent id
      rw [descend, descend, h, ih]

/-! ### Calls that are alike -/

/-- Calls have the plans and the stages that they had. -/
structure Resembles (calls calls' : Calls) : Prop where
  size : calls'.size = calls.size
  plan : ∀ id, (calls'.get id).plan = (calls.get id).plan
  first : ∀ id, (calls'.get id).first = (calls.get id).first
  next : ∀ id, (calls'.get id).next = (calls.get id).next

theorem Resembles.refl (calls : Calls) : Resembles calls calls :=
  ⟨rfl, fun _ => rfl, fun _ => rfl, fun _ => rfl⟩

theorem Resembles.delegates
    {calls calls' : Calls}
    (h : Resembles calls calls')
    (id : CallId) :
    (calls'.get id).delegates = (calls.get id).delegates :=
  Call.delegates_congr (h.plan id) (h.first id) (h.next id)

/-- Canceling reaches the same calls. -/
theorem Resembles.descent
    {calls calls' : Calls}
    (h : Resembles calls calls')
    (id : CallId) :
    calls'.descent id = calls.descent id := by
  rw [Calls.descent, Calls.descent, h.size, descend_congr h.delegates]

theorem resembles_setState
    (calls : Calls)
    (own : CallId)
    (state : CallState) :
    Resembles calls (calls.modify own fun call => { call with state := state }) :=
  ⟨Array.size_modify, get_setState Call.plan state (fun _ => rfl) calls own,
    get_setState Call.first state (fun _ => rfl) calls own,
    get_setState Call.next state (fun _ => rfl) calls own⟩

/-! ### Canceled calls -/

/-- Some calls were canceled, and with each of them, where canceling ends, every call below it.
Besides flags, only phases and counts of runs may differ. -/
structure Marks (calls calls' : Calls) : Prop where
  size : calls'.size = calls.size
  plan : ∀ id, (calls'.get id).plan = (calls.get id).plan
  state : ∀ id, (calls'.get id).state = (calls.get id).state
  first : ∀ id, (calls'.get id).first = (calls.get id).first
  next : ∀ id, (calls'.get id).next = (calls.get id).next
  canceled : ∀ id, (calls.get id).canceled = true → (calls'.get id).canceled = true
  below : calls.IsForest → ∀ id,
    (calls.get id).canceled = false → (calls'.get id).canceled = true →
      ∀ other < calls.size, calls.Below id other →
        (calls'.get other).canceled = true ∨ (calls.get other).plan.ignoresCancel = true

namespace Marks

theorem resembles
    {calls calls' : Calls}
    (h : Marks calls calls') :
    Resembles calls calls' :=
  ⟨h.size, h.plan, h.first, h.next⟩

theorem delegates
    {calls calls' : Calls}
    (h : Marks calls calls')
    (id : CallId) :
    (calls'.get id).delegates = (calls.get id).delegates :=
  h.resembles.delegates id

theorem below_iff
    {calls calls' : Calls}
    (h : Marks calls calls')
    {id other : CallId} :
    calls'.Below id other ↔ calls.Below id other := by
  simp only [Below, h.delegates]

theorem isForest_iff
    {calls calls' : Calls}
    (h : Marks calls calls') :
    calls'.IsForest ↔ calls.IsForest := by
  simp only [IsForest, cancelEnds, h.size, h.resembles.descent]

theorem trans
    {calls calls' calls'' : Calls}
    (h : Marks calls calls')
    (h' : Marks calls' calls'') :
    Marks calls calls'' := by
  refine ⟨h'.size.trans h.size, fun id => (h'.plan id).trans (h.plan id),
    fun id => (h'.state id).trans (h.state id), fun id => (h'.first id).trans (h.first id),
    fun id => (h'.next id).trans (h.next id), fun id hid => h'.canceled id (h.canceled id hid), ?_⟩
  intro hforest id hbefore hafter other hother hbelow
  -- The call was canceled by the first change or by the second one.
  cases hmiddle : (calls'.get id).canceled with
  | true =>
      rcases h.below hforest id hbefore hmiddle other hother hbelow with hflag | hignores
      · exact Or.inl (h'.canceled other hflag)
      · exact Or.inr hignores
  | false =>
      have hlt : other < calls'.size := h.size ▸ hother
      rcases h'.below (h.isForest_iff.mpr hforest) id hmiddle hafter other hlt
        (h.below_iff.mpr hbelow) with hflag | hignores
      · exact Or.inl hflag
      · exact Or.inr (h.plan other ▸ hignores)

end Marks

/-- A change that leaves plans, states, flags and stages alone. -/
theorem marks_modify
    {calls : Calls}
    {id : CallId}
    {change : Call → Call}
    (hplan : ∀ call, (change call).plan = call.plan)
    (hstate : ∀ call, (change call).state = call.state)
    (hfirst : ∀ call, (change call).first = call.first)
    (hnext : ∀ call, (change call).next = call.next)
    (hcanceled : ∀ call, (change call).canceled = call.canceled) :
    Marks calls (calls.modify id change) := by
  have hflag := field_modify Call.canceled change hcanceled calls id
  refine ⟨Array.size_modify, ?_, ?_, ?_, ?_, fun other h => (hflag other).trans h, ?_⟩
  · exact field_modify Call.plan change hplan calls id
  · exact field_modify Call.state change hstate calls id
  · exact field_modify Call.first change hfirst calls id
  · exact field_modify Call.next change hnext calls id
  · intro _ other hbefore hafter
    rw [hflag, hbefore] at hafter
    exact absurd hafter (by simp)

theorem Marks.refl (calls : Calls) : Marks calls calls := by
  refine ⟨rfl, fun _ => rfl, fun _ => rfl, fun _ => rfl, fun _ => rfl, fun _ h => h, ?_⟩
  intro _ id hbefore hafter
  rw [hbefore] at hafter
  exact absurd hafter (by simp)

theorem get_cancel_eq_or
    (calls : Calls)
    (canceled id : CallId) :
    (calls.cancel canceled).get id = calls.get id ∨
      id ∈ (calls.descent canceled).reached ∧
        (calls.cancel canceled).get id = (calls.get id).markCanceled := by
  by_cases hid : id < calls.size
  · rw [get_cancel hid]
    split
    · rename_i hmem
      exact Or.inr ⟨hmem, rfl⟩
    · exact Or.inl rfl
  · left
    rw [get_eq_default (Nat.not_lt.mp hid), get_eq_default (by simpa using hid)]

/-- Canceling a call marks it and all calls below it. -/
theorem marks_cancel (calls : Calls) (canceled : CallId) :
    Marks calls (calls.cancel canceled) := by
  refine ⟨size_cancel calls canceled, ?_, ?_, ?_, ?_, ?_, ?_⟩
  · intro id
    rcases get_cancel_eq_or calls canceled id with h | ⟨_, h⟩ <;> simp [h]
  · intro id
    rcases get_cancel_eq_or calls canceled id with h | ⟨_, h⟩ <;> simp [h]
  · intro id
    rcases get_cancel_eq_or calls canceled id with h | ⟨_, h⟩ <;> simp [h]
  · intro id
    rcases get_cancel_eq_or calls canceled id with h | ⟨_, h⟩ <;> simp [h]
  · intro id hflag
    rcases get_cancel_eq_or calls canceled id with h | ⟨_, h⟩ <;> simp [h, hflag]
  · intro hforest id hbefore hafter other hother hbelow
    have hreached : id ∈ (calls.descent canceled).reached := by
      rcases get_cancel_eq_or calls canceled id with h | ⟨hmem, _⟩
      · rw [h, hbefore] at hafter
        exact absurd hafter (by simp)
      · exact hmem
    by_cases hcanceled : canceled < calls.size
    · have hmem := below_mem_reached (hforest canceled hcanceled) hreached hbelow
      rw [get_cancel hother, if_pos hmem, Call.canceled_markCanceled]
      cases (calls.get other).plan.ignoresCancel <;> simp
    · -- A call that does not exist is the only one reached, and has no flag.
      have hid := eq_of_mem_reached (Nat.not_lt.mp hcanceled) hreached
      subst hid
      rw [get_eq_default (by simpa using hcanceled)] at hafter
      exact absurd hafter (by decide)

end Calls
end TraceArchive
