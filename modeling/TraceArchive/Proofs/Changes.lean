import TraceArchive.Proofs.Descents

/-!
# How collections of calls change

Whatever happens in a session, its calls change in a few ways: one is canceled with what is below
it, one is added, or a field of one is set.  The phase and the next stage of a call are only set by
its own body.

* `Changes`: any number of such changes, in the course of one body.
* `Changes.field`: what the body of a call leaves alone in all others.
* `Ties`, `TiesNext`: a call with an only stage, which is canceled with it.
* `Changes.ties`, `Changes.tiesNext`: calls stay tied while the bodies of others go on.
-/

set_option autoImplicit false

namespace TraceArchive

/-- A change that leaves the plan, the stages, the flag and the phase of a call alone. -/
structure Call.IsMinor (change : Call → Call) : Prop where
  plan : ∀ call, (change call).plan = call.plan
  first : ∀ call, (change call).first = call.first
  next : ∀ call, (change call).next = call.next
  canceled : ∀ call, (change call).canceled = call.canceled
  phase : ∀ call, (change call).phase = call.phase

theorem Call.isMinor_setState (state : CallState) :
    Call.IsMinor fun call => { call with state := state } := by
  constructor <;> exact fun _ => rfl

theorem Call.isMinor_count :
    Call.IsMinor fun call => { call with runs := call.runs + 1 } := by
  constructor <;> exact fun _ => rfl

@[simp] theorem Call.phase_markCanceled (call : Call) :
    call.markCanceled.phase = call.phase := by
  unfold markCanceled
  split <;> rfl

namespace Calls

/-- What the body of a call, or what happens outside of all bodies, may do to a collection of calls.
Only calls with a first stage are added for it, and a search is given no next one. -/
inductive Changes (own : CallId) (calls : Calls) : Calls → Prop
  | refl : Changes own calls calls
  | cancel {calls' : Calls} (h : Changes own calls calls') (id : CallId) :
      Changes own calls (calls'.cancel id)
  | push {calls' : Calls} (h : Changes own calls calls') (plan : Plan) (first : Option CallId)
      (hfirst : first ≠ none → plan.IsComposed) :
      Changes own calls (calls'.push plan first).1
  | minor {calls' : Calls} (h : Changes own calls calls') (id : CallId) (change : Call → Call)
      (hminor : Call.IsMinor change) :
      Changes own calls (calls'.modify id change)
  | setPhase {calls' : Calls} (h : Changes own calls calls') (phase : SearchPhase) :
      Changes own calls (calls'.modify own fun call => { call with phase := phase })
  | setNext {calls' : Calls} (h : Changes own calls calls') (next : CallId)
      (hplan : ∀ asked, (calls'.get own).plan ≠ .search asked) :
      Changes own calls (calls'.modify own fun call => { call with next := some next })

variable {own : CallId} {calls calls' calls'' : Calls}

theorem Changes.trans
    (h : Changes own calls calls')
    (h' : Changes own calls' calls'') :
    Changes own calls calls'' := by
  induction h' with
  | refl => exact h
  | cancel _ id ih => exact ih.cancel id
  | push _ plan first hfirst ih => exact ih.push plan first hfirst
  | minor _ id change hminor ih => exact ih.minor id change hminor
  | setPhase _ phase ih => exact ih.setPhase phase
  | setNext _ next hplan ih => exact ih.setNext next hplan

theorem Changes.setState
    (h : Changes own calls calls')
    (id : CallId)
    (state : CallState) :
    Changes own calls (calls'.modify id fun call => { call with state := state }) :=
  h.minor id _ (Call.isMinor_setState state)

/-- The calls of a plan are added one by one. -/
theorem Changes.add
    (h : Changes own calls calls')
    (plan : Plan) :
    Changes own calls (calls'.add plan).1 := by
  fun_induction Calls.add calls' plan with
  | case1 first mapper inner ih => exact ih.push _ _ fun _ => trivial
  | case2 first mapper inner ih => exact ih.push _ _ fun _ => trivial
  | case3 plan hmapped hflat => exact h.push plan none fun hfirst => absurd rfl hfirst

/-! ### What the body of a call leaves alone -/

/-- What is the same in all new calls is left alone in a collection when one is added. -/
theorem field_push
    {α : Type}
    (field : Call → α)
    (hfield : ∀ plan first, field (Call.fresh plan first) = field default)
    (calls : Calls)
    (plan : Plan)
    (first : Option CallId)
    (id : CallId) :
    field ((calls.push plan first).1.get id) = field (calls.get id) := by
  rcases Nat.lt_trichotomy id calls.size with hlt | rfl | hgt
  · rw [get_push_of_lt hlt]
  · rw [get_push_self, get_eq_default (Nat.le_refl _), hfield]
  · have hsize : Array.size (calls.push plan first).1 ≤ id := by
      rw [size_push]
      exact hgt
    rw [get_eq_default hsize, get_eq_default (Nat.le_of_lt hgt)]

/-- The phase and the next stage of a call stay while the bodies of others go on. -/
theorem Changes.others
    {id : CallId}
    (h : Changes own calls calls')
    (hne : id ≠ own) :
    (calls'.get id).phase = (calls.get id).phase ∧ (calls'.get id).next = (calls.get id).next := by
  induction h with
  | refl => exact ⟨rfl, rfl⟩
  | @cancel calls' _ canceled ih =>
      rcases get_cancel_eq_or calls' canceled id with heq | ⟨_, heq⟩
      · exact heq ▸ ih
      · rw [heq, Call.phase_markCanceled, Call.next_markCanceled]
        exact ih
  | @push calls' _ plan first _ ih =>
      rw [field_push Call.phase (fun _ _ => rfl), field_push Call.next (fun _ _ => rfl)]
      exact ih
  | @minor calls' _ other change hminor ih =>
      rw [field_modify Call.phase change hminor.phase, field_modify Call.next change hminor.next]
      exact ih
  | setPhase _ phase ih => rwa [get_modify_of_ne hne]
  | setNext _ next _ ih => rwa [get_modify_of_ne hne]

/-- Only composed calls have a first stage. -/
def FirstOfComposed (calls : Calls) : Prop :=
  ∀ id, (calls.get id).first ≠ none → (calls.get id).plan.IsComposed

theorem FirstOfComposed.of_eq
    (h : calls.FirstOfComposed)
    (hplan : ∀ id, (calls'.get id).plan = (calls.get id).plan)
    (hfirst : ∀ id, (calls'.get id).first = (calls.get id).first) :
    calls'.FirstOfComposed := by
  intro id hid
  rw [hfirst] at hid
  rw [hplan]
  exact h id hid

theorem FirstOfComposed.modify
    {change : Call → Call}
    (h : calls.FirstOfComposed)
    (hplan : ∀ call, (change call).plan = call.plan)
    (hfirst : ∀ call, (change call).first = call.first)
    (id : CallId) :
    FirstOfComposed (calls.modify id change) :=
  h.of_eq (field_modify Call.plan change hplan calls id)
    (field_modify Call.first change hfirst calls id)

theorem firstOfComposed_empty : FirstOfComposed #[] := by
  intro id hfirst
  rw [get_eq_default (Nat.zero_le id)] at hfirst
  exact absurd rfl hfirst

theorem Changes.firstOfComposed
    (h : Changes own calls calls')
    (hbefore : calls.FirstOfComposed) :
    calls'.FirstOfComposed := by
  induction h with
  | refl => exact hbefore
  | @cancel calls' _ canceled ih =>
      have hmarks := marks_cancel calls' canceled
      exact ih.of_eq hmarks.plan hmarks.first
  | @push calls' _ plan first hfirst ih =>
      intro id hid
      rcases Nat.lt_trichotomy id calls'.size with hlt | rfl | hgt
      · rw [get_push_of_lt hlt] at hid ⊢
        exact ih id hid
      · rw [get_push_self] at hid ⊢
        exact hfirst hid
      · rw [get_eq_default (by rw [size_push]; exact hgt)] at hid
        exact absurd rfl hid
  | minor _ id change hminor ih => exact ih.modify hminor.plan hminor.first id
  | setPhase _ phase ih =>
      apply ih.modify <;> exact fun _ => rfl
  | setNext _ next _ ih =>
      apply ih.modify <;> exact fun _ => rfl

/-! ### Calls with an only stage -/

/-- A call delegates to a search and to nothing else, and that is canceled with it. -/
structure Ties (calls : Calls) (above stage : CallId) : Prop where
  only : (calls.get above).delegates = [stage]
  leaf : (calls.get stage).delegates = []
  asks : ∃ asked, (calls.get stage).plan = .search asked
  canceled : (calls.get above).canceled = true → (calls.get stage).canceled = true

variable {above stage : CallId}

theorem Ties.lt
    (h : calls.Ties above stage) :
    above < calls.size ∧ stage < calls.size := by
  constructor
  · have hstage : stage ∈ (calls.get above).delegates := by simp [h.only]
    exact lt_size_of_mem_delegates hstage
  · by_contra hle
    obtain ⟨asked, hplan⟩ := h.asks
    rw [get_eq_default (Nat.not_lt.mp hle)] at hplan
    cases hplan

/-- It does not matter what becomes of states and phases. -/
theorem Ties.of_eq
    (h : calls.Ties above stage)
    (hplan : (calls'.get stage).plan = (calls.get stage).plan)
    (hdelegates : ∀ id, id = above ∨ id = stage →
      (calls'.get id).delegates = (calls.get id).delegates)
    (hcanceled : ∀ id, id = above ∨ id = stage →
      (calls'.get id).canceled = (calls.get id).canceled) :
    calls'.Ties above stage := by
  refine ⟨?_, ?_, ?_, ?_⟩
  · rw [hdelegates above (Or.inl rfl)]
    exact h.only
  · rw [hdelegates stage (Or.inr rfl)]
    exact h.leaf
  · rw [hplan]
    exact h.asks
  · rw [hcanceled above (Or.inl rfl), hcanceled stage (Or.inr rfl)]
    exact h.canceled

/-- Whatever is canceled, a stage is canceled with the call that it is tied to. -/
theorem Ties.cancel
    (h : calls.Ties above stage)
    (root : CallId) :
    (calls.cancel root).Ties above stage := by
  obtain ⟨hlt, hstage⟩ := h.lt
  obtain ⟨asked, hplan⟩ := h.asks
  have hmarks := marks_cancel calls root
  refine ⟨(hmarks.delegates above).trans h.only, (hmarks.delegates stage).trans h.leaf,
    ⟨asked, (hmarks.plan stage).trans hplan⟩, fun hcanceled => ?_⟩
  rcases get_cancel_eq_or calls root above with heq | ⟨hreached, _⟩
  · rw [heq] at hcanceled
    exact hmarks.canceled stage (h.canceled hcanceled)
  · have hmem := stage_mem_reached h.only h.leaf hstage hreached
    rw [get_cancel hstage, if_pos hmem, Call.canceled_markCanceled, hplan]
    exact Bool.or_true _

theorem Ties.modify
    {change : Call → Call}
    (h : calls.Ties above stage)
    (hplan : ∀ call, (change call).plan = call.plan)
    (hfirst : ∀ call, (change call).first = call.first)
    (hnext : ∀ call, (change call).next = call.next)
    (hcanceled : ∀ call, (change call).canceled = call.canceled)
    (id : CallId) :
    Ties (calls.modify id change) above stage := by
  have hplans := field_modify Call.plan change hplan calls id
  refine h.of_eq (hplans stage) (fun other _ => ?_)
    fun other _ => field_modify Call.canceled change hcanceled calls id other
  simp only [Call.delegates, hplans, field_modify Call.first change hfirst calls id other,
    field_modify Call.next change hnext calls id other]

/-- Calls stay tied while the bodies of others go on. -/
theorem Changes.ties
    (h : Changes own calls calls')
    (hne : above ≠ own)
    (hbefore : calls.Ties above stage) :
    calls'.Ties above stage := by
  induction h with
  | refl => exact hbefore
  | cancel _ root ih => exact ih.cancel root
  | @push calls' _ plan first _ ih =>
      obtain ⟨habove, hstage⟩ := ih.lt
      have hold : ∀ id, id = above ∨ id = stage →
          (calls'.push plan first).1.get id = calls'.get id := by
        rintro id (rfl | rfl)
        · exact get_push_of_lt habove plan first
        · exact get_push_of_lt hstage plan first
      exact ih.of_eq (congrArg Call.plan (hold stage (Or.inr rfl)))
        (fun id hid => congrArg Call.delegates (hold id hid))
        fun id hid => congrArg Call.canceled (hold id hid)
  | minor _ id change hminor ih =>
      exact ih.modify hminor.plan hminor.first hminor.next hminor.canceled id
  | setPhase _ phase ih =>
      apply ih.modify <;> exact fun _ => rfl
  | @setNext calls' _ next hplan ih =>
      have hold : ∀ id, id = above ∨ id = stage → id ≠ own := by
        rintro id (rfl | rfl) rfl
        · exact hne rfl
        · obtain ⟨asked, hasks⟩ := ih.asks
          exact hplan asked hasks
      have hget : ∀ id, id = above ∨ id = stage →
          Calls.get (calls'.modify own fun call => { call with next := some next }) id =
            calls'.get id :=
        fun id hid => get_modify_of_ne (hold id hid) _
      exact ih.of_eq (congrArg Call.plan (hget stage (Or.inr rfl)))
        (fun id hid => congrArg Call.delegates (hget id hid))
        fun id hid => congrArg Call.canceled (hget id hid)

/-- A call is tied to its next stage, if it has one. -/
def TiesNext (calls : Calls) (own : CallId) : Prop :=
  ∀ stage, (calls.get own).next = some stage → calls.Ties own stage

theorem Changes.tiesNext
    {id : CallId}
    (h : Changes own calls calls')
    (hne : id ≠ own)
    (hbefore : calls.TiesNext id) :
    calls'.TiesNext id := by
  intro stage hstage
  rw [(h.others hne).2] at hstage
  exact h.ties hne (hbefore stage hstage)

theorem TiesNext.modify
    {change : Call → Call}
    (h : calls.TiesNext own)
    (hplan : ∀ call, (change call).plan = call.plan)
    (hfirst : ∀ call, (change call).first = call.first)
    (hnext : ∀ call, (change call).next = call.next)
    (hcanceled : ∀ call, (change call).canceled = call.canceled)
    (id : CallId) :
    TiesNext (calls.modify id change) own := by
  intro stage hstage
  rw [field_modify Call.next change hnext] at hstage
  exact (h stage hstage).modify hplan hfirst hnext hcanceled id

/-- A call without a first stage is tied to a new search. -/
theorem tiesNext_push
    {asked : Search}
    (hown : own < calls.size)
    (hheeds : (calls.get own).plan.ignoresCancel = false)
    (hfirst : (calls.get own).first = none)
    (hflag : (calls.get own).canceled = false) :
    TiesNext ((calls.push (.search asked) none).1.modify own fun call =>
      { call with next := some calls.size }) own := by
  have hsize : own < Array.size (calls.push (.search asked) none).1 := by
    rw [size_push]
    exact Nat.lt_succ_of_lt hown
  have hget := get_modify hsize fun call => { call with next := some calls.size }
  have hself := (hget own).trans (if_pos rfl)
  have hstage := ((hget calls.size).trans (if_neg (Nat.ne_of_gt hown))).trans
    (get_push_self calls (.search asked) none)
  rw [get_push_of_lt hown] at hself
  intro stage hnext
  rw [hself] at hnext
  cases hnext
  refine ⟨?_, ?_, ⟨asked, congrArg Call.plan hstage⟩, fun hcanceled => ?_⟩
  · rw [hself, Call.delegates, hheeds, hfirst]
    rfl
  · exact congrArg Call.delegates hstage
  · rw [hself] at hcanceled
    exact absurd (hcanceled.symm.trans hflag) (by decide)

end Calls
end TraceArchive
