import TraceArchive.Proofs.Computations
import TraceArchive.Proofs.Session.Alterations

/-!
# The calls below a call

A call grows by what it goes on to: its next stage.  When the mappers of a call and of all calls
below it only build new calls, whatever it grows by is new, so that two calls with nothing in common
never come to share anything.

* `Calls.below_of_mem_reached`: canceling a call reaches calls below it only.
* `Calls.Tame`, `Calls.Sprouts`, `Calls.Apart`: calls that only grow by new ones, new calls, and
  calls with nothing below them in common.
* `Ramifies`, `ramifies_of_move`: what a move does to the calls below a call.
* `below_of_ramifies`: what is below a tame call was so before, or is new.
* `Concerns`, `call_of_concerns`: what is done to a call leaves all calls below another one alone.
-/

set_option autoImplicit false

namespace TraceArchive

theorem Call.mem_delegates_iff
    {call : Call}
    {id : CallId} :
    id ∈ call.delegates ↔
      call.plan.ignoresCancel = false ∧ (call.first = some id ∨ call.next = some id) := by
  cases hignores : call.plan.ignoresCancel <;> simp [delegates, hignores]

namespace Calls

/-! ### What canceling reaches -/

theorem mem_reached_foldl_iff
    {calls : Calls}
    {depth : Nat}
    {other : CallId}
    (hone : ∀ (descent : Descent) (id : CallId),
      other ∈ (descend calls depth descent id).reached →
        other ∈ descent.reached ∨ calls.Below id other)
    (ids : List CallId)
    {descent : Descent}
    (h : other ∈ (ids.foldl (descend calls depth) descent).reached) :
    other ∈ descent.reached ∨ ∃ id ∈ ids, calls.Below id other := by
  induction ids generalizing descent with
  | nil => exact Or.inl h
  | cons id rest ih =>
      rcases ih h with hfirst | ⟨later, hlater, hbelow⟩
      · rcases hone descent id hfirst with hold | hbelow
        · exact Or.inl hold
        · exact Or.inr ⟨id, List.mem_cons_self, hbelow⟩
      · exact Or.inr ⟨later, List.mem_cons_of_mem id hlater, hbelow⟩

theorem below_of_mem_descend
    (calls : Calls)
    (depth : Nat)
    {other : CallId}
    (descent : Descent)
    (id : CallId)
    (h : other ∈ (descend calls depth descent id).reached) :
    other ∈ descent.reached ∨ calls.Below id other := by
  induction depth generalizing descent id with
  | zero => exact Or.inl h
  | succ depth ih =>
      rw [descend] at h
      split at h
      · rcases mem_reached_foldl_iff ih _ h with hmem | ⟨below, hdelegate, hbelow⟩
        · rcases List.mem_cons.mp hmem with rfl | hold
          · exact Or.inr Relation.ReflTransGen.refl
          · exact Or.inl hold
        · exact Or.inr (hbelow.head hdelegate)
      · exact Or.inl h

/-- Canceling a call reaches calls below it only. -/
theorem below_of_mem_reached
    {calls : Calls}
    {id other : CallId}
    (h : other ∈ (calls.descent id).reached) :
    calls.Below id other :=
  (below_of_mem_descend calls calls.size ⟨[], true⟩ id h).resolve_left List.not_mem_nil

theorem get_cancel_of_not_below
    {calls : Calls}
    {id other : CallId}
    (h : ¬ calls.Below id other) :
    (calls.cancel id).get other = calls.get other :=
  (get_cancel_eq_or calls id other).resolve_right fun ⟨hreached, _⟩ =>
    h (below_of_mem_reached hreached)

/-! ### New calls -/

/-- Whatever is below a call was so before, if that delegates as before. -/
theorem below_of_delegates_eq
    {calls calls' : Calls}
    {root id : CallId}
    (h : ∀ middle, calls.Below root middle →
      (calls'.get middle).delegates = (calls.get middle).delegates)
    (hbelow : calls'.Below root id) :
    calls.Below root id := by
  induction hbelow with
  | refl => exact Relation.ReflTransGen.refl
  | tail _ hlast ih => exact ih.tail (h _ ih ▸ hlast)

/-- The mappers of all calls below a call only build new calls. -/
def Tame (names : Names) (calls : Calls) (root : CallId) : Prop :=
  ∀ id, calls.Below root id → (calls.get id).plan.BuildsFresh names

/-- A tame call came after the first ones, and so did all calls below it. -/
def Sprouts (names : Names) (before : Nat) (calls : Calls) (root : CallId) : Prop :=
  ∀ id, calls.Below root id →
    before ≤ id ∧ id < calls.size ∧ (calls.get id).plan.BuildsFresh names

/-- Two calls have nothing below them in common. -/
def Apart (calls : Calls) (one other : CallId) : Prop :=
  ∀ id, calls.Below one id → ¬ calls.Below other id

theorem Apart.symm
    {calls : Calls}
    {one other : CallId}
    (h : calls.Apart one other) :
    calls.Apart other one :=
  fun id hother hone => h id hone hother

/-- What a call delegates to exists. -/
def Closed (calls : Calls) : Prop :=
  ∀ id < calls.size, ∀ below ∈ (calls.get id).delegates, below < calls.size

theorem Closed.lt_of_below
    {calls : Calls}
    {root id : CallId}
    (h : calls.Closed)
    (hroot : root < calls.size)
    (hbelow : calls.Below root id) :
    id < calls.size := by
  induction hbelow with
  | refl => exact hroot
  | tail _ hlast ih => exact h _ ih _ hlast

variable {names : Names}

theorem Sprouts.tame
    {before : Nat}
    {calls : Calls}
    {root : CallId}
    (h : calls.Sprouts names before root) :
    calls.Tame names root :=
  fun id hbelow => (h id hbelow).2.2

/-- New calls stay so when they delegate as before. -/
theorem Sprouts.of_eq
    {before : Nat}
    {calls calls' : Calls}
    {root : CallId}
    (h : calls.Sprouts names before root)
    (hsize : calls.size ≤ calls'.size)
    (hplan : ∀ id < calls.size, before ≤ id → (calls'.get id).plan = (calls.get id).plan)
    (hdelegates : ∀ id < calls.size, before ≤ id →
      (calls'.get id).delegates = (calls.get id).delegates) :
    calls'.Sprouts names before root := by
  intro id hbelow
  obtain ⟨hle, hlt, hfresh⟩ := h id <| below_of_delegates_eq
    (fun middle hmiddle => hdelegates middle (h middle hmiddle).2.1 (h middle hmiddle).1) hbelow
  exact ⟨hle, Nat.lt_of_lt_of_le hlt hsize, hplan id hlt hle ▸ hfresh⟩

theorem first_of_mem_delegates_fresh
    {plan : Plan}
    {first : Option CallId}
    {id : CallId}
    (h : id ∈ (Call.fresh plan first).delegates) :
    first = some id :=
  (Call.mem_delegates_iff.mp h).2.resolve_right nofun

/-- A call that is made for new ones is new. -/
theorem sprouts_push
    {before : Nat}
    {calls : Calls}
    {plan : Plan}
    {first : Option CallId}
    (hbefore : before ≤ calls.size)
    (hplan : plan.BuildsFresh names)
    (hfirst : ∀ stage, first = some stage → calls.Sprouts names before stage) :
    Sprouts names before (calls.push plan first).1 (calls.push plan first).2 := by
  have hget := get_push_self calls plan first
  have hsize := size_push calls plan first
  intro id hbelow
  rcases Relation.ReflTransGen.cases_head hbelow with rfl | ⟨stage, hstage, hrest⟩
  · refine ⟨hbefore, hsize ▸ Nat.lt_succ_self _, ?_⟩
    exact (congrArg Call.plan hget) ▸ hplan
  · have hstage' : stage ∈ ((calls.push plan first).1.get calls.size).delegates := hstage
    rw [hget] at hstage'
    have hsprouts := hfirst stage (first_of_mem_delegates_fresh hstage')
    refine hsprouts.of_eq (hsize ▸ Nat.le_succ _) ?_ ?_ id hrest
    · exact fun other hlt _ => congrArg Call.plan (get_push_of_lt hlt plan first)
    · exact fun other hlt _ => congrArg Call.delegates (get_push_of_lt hlt plan first)

/-- The calls that are made for a plan are new. -/
theorem sprouts_add
    (calls : Calls)
    {plan : Plan}
    (h : plan.BuildsFresh names) :
    Sprouts names calls.size (calls.add plan).1 (calls.add plan).2 := by
  fun_induction Calls.add calls plan with
  | case1 first mapper inner ih =>
      have hinner := (added_add calls first).adds.size
      cases h with
      | mapped hfirst hpure =>
          exact sprouts_push hinner (.mapped hfirst hpure)
            fun _ hsame => Option.some.inj hsame ▸ ih hfirst
  | case2 first mapper inner ih =>
      have hinner := (added_add calls first).adds.size
      cases h with
      | flatMapped hfirst hpure hnew hnext =>
          exact sprouts_push hinner (.flatMapped hfirst hpure hnew hnext)
            fun _ hsame => Option.some.inj hsame ▸ ih hfirst
  | case3 plan hmapped hflat => exact sprouts_push (Nat.le_refl _) h (by simp)

end Calls

namespace Session

variable {names : Names}

/-- Labels stand for calls of the plans that they are said to stand for. -/
def Labelled (session : Session) (names : Names) : Prop :=
  ∀ label plan id, names label = .ok plan → session.find label = .ok id →
    (session.call id).plan = plan

theorem Labelled.congr
    {session after : Session}
    (h : session.Labelled names)
    (hlabels : after.labels = session.labels)
    (hplan : ∀ id, (after.call id).plan = (session.call id).plan) :
    after.Labelled names := by
  intro label plan id hnames hfind
  rw [hplan]
  refine h label plan id hnames ?_
  rw [find, hlabels] at hfind
  exact hfind

/-! ### The next stage of a body -/

/-- The next stage of a call stays, or it is a call that exists; that one is new, with all calls
below it, when the call's mappers only build new calls. -/
def Branches (names : Names) (own : CallId) (session after : Session) : Prop :=
  (after.call own).next = (session.call own).next ∨
    ∃ stage < after.calls.size, (after.call own).next = some stage ∧
      (session.Labelled names → (session.call own).plan.BuildsFresh names →
        after.calls.Sprouts names session.calls.size stage)

theorem Marks.branches
    {session after : Session}
    (h : Marks session after)
    (own : CallId) :
    Branches names own session after :=
  Or.inl (h.calls.next own)

theorem Marks.trans_branches
    {session marked after : Session}
    {own : CallId}
    (h : Marks session marked)
    (h' : Branches names own marked after) :
    Branches names own session after := by
  rcases h' with hsame | ⟨stage, hlt, hnext, hsprouts⟩
  · exact Or.inl (hsame.trans (h.calls.next own))
  · refine Or.inr ⟨stage, hlt, hnext, fun hlabelled hfresh => ?_⟩
    have hplan : (marked.call own).plan = (session.call own).plan := h.calls.plan own
    exact h.calls.size ▸
      hsprouts (hlabelled.congr h.keeps.labels h.calls.plan) (hplan.symm ▸ hfresh)

/-- A call goes on to a call that was added for it. -/
theorem branches_setNext
    {session added : Session}
    {own stage : CallId}
    (hown : own < session.calls.size)
    (hsize : session.calls.size ≤ added.calls.size)
    (hstage : stage < added.calls.size)
    (hsprouts : session.Labelled names → (session.call own).plan.BuildsFresh names →
      added.calls.Sprouts names session.calls.size stage) :
    Branches names own session
      (added.updateCall own fun call => { call with next := some stage }) := by
  have hget := Calls.get_modify (Nat.lt_of_lt_of_le hown hsize) fun call =>
    { call with next := some stage }
  refine Or.inr ⟨stage, Nat.lt_of_lt_of_eq hstage Array.size_modify.symm,
    congrArg Call.next ((hget own).trans (if_pos rfl)), fun hlabelled hfresh => ?_⟩
  have hother : ∀ id, session.calls.size ≤ id →
      Calls.get (added.calls.modify own fun call => { call with next := some stage }) id =
        added.calls.get id := fun id hle =>
    (hget id).trans (if_neg (Nat.ne_of_gt (Nat.lt_of_lt_of_le hown hle)))
  refine (hsprouts hlabelled hfresh).of_eq (Nat.le_of_eq Array.size_modify.symm) ?_ ?_
  · exact fun id _ hle => congrArg Call.plan (hother id hle)
  · exact fun id _ hle => congrArg Call.delegates (hother id hle)

theorem branches_issue
    {session : Session}
    {own : CallId}
    (hown : own < session.calls.size)
    (search : Search)
    (frame : Frame) :
    Branches names own session (session.issue own search frame).2 := by
  unfold issue
  dsimp only
  split
  · exact (marks_setPhase session own .failed).branches own
  · have hadded := Calls.added_add session.calls (.search search)
    have hsprouts : (session.add (.search search)).1.calls.Sprouts names session.calls.size
        (session.add (.search search)).2 := Calls.sprouts_add session.calls (.search search)
    exact @branches_setNext _ session ((session.add (.search search)).1.note _) own _ hown
      hadded.adds.size hadded.lt fun _ _ => hsprouts

theorem branches_passPhase
    {session : Session}
    {own : CallId}
    {phase : SearchPhase}
    {next : Session → Progress × Session}
    (hnext : ∀ marked, Marks session marked → Branches names own marked (next marked).2) :
    Branches names own session (session.passPhase own phase next).2 := by
  have hmarks := marks_enterPhase session own phase
  unfold passPhase
  rcases hresult : session.enterPhase own phase with ⟨_ | _, after⟩
  · rw [hresult] at hmarks
    exact hmarks.trans_branches ((marks_setPhase after own .failed).branches own)
  · rw [hresult] at hmarks
    exact hmarks.trans_branches (hnext after hmarks)

theorem branches_begin
    {session : Session}
    {own : CallId}
    (hown : own < session.calls.size) :
    Branches names own session (session.begin own).2 := by
  unfold begin
  dsimp only
  cases (session.call own).plan with
  | recording leaf =>
      have hmarks : Marks session
          (session.updateCall own fun call => { call with runs := call.runs + 1 }) := by
        apply marks_updateCall <;> exact fun _ => rfl
      exact hmarks.branches own
  | traceSearch search =>
      exact branches_passPhase fun marked hmarks =>
        branches_issue (hmarks.calls.size ▸ hown) search.listing _
  | _ => exact Or.inl rfl

/-- What a flat mapper chose is new, if it was to build it. -/
theorem sprouts_of_stageCall
    {session : Session}
    {stage : Stage Plan}
    {chosen : CallId × Session}
    (hformed : session.Formed)
    (hstage : session.stageCall stage = .ok chosen)
    (hlabelled : session.Labelled names)
    (hnew : stage.IsNew names)
    (hfresh : ∀ plan, stage.meaning names = .ok plan → plan.BuildsFresh names) :
    chosen.2.calls.Sprouts names session.calls.size chosen.1 := by
  rcases stageCall_cases hformed hstage with ⟨label, id, rfl, _, _⟩ | ⟨plan, hid, hcalls, hplan⟩
  · exact absurd hnew False.elim
  · rw [hid, hcalls]
    rcases hplan with rfl | ⟨label, id, rfl, hfind, rfl⟩
    · exact Calls.sprouts_add session.calls (hfresh plan rfl)
    · obtain ⟨plan, hmeaning⟩ := hnew
      have hsame := hlabelled label plan id hmeaning hfind
      exact Calls.sprouts_add session.calls (hsame ▸ hfresh plan hmeaning)

theorem branches_applyFlatMapper
    {session : Session}
    {own : CallId}
    {first : Plan}
    {mapper : Value → Mapping (Stage Plan)}
    (hformed : session.Formed)
    (hown : own < session.calls.size)
    (hplan : (session.call own).plan = .flatMapped first mapper)
    (value : Value) :
    Branches names own session (session.applyFlatMapper own mapper value).2 := by
  unfold applyFlatMapper
  split
  · exact Or.inl rfl
  · dsimp only
    show Branches names own (session.note (.applied own)) _
    have hmarks := marks_cancelAll (mapper value).cancels (session.note (.applied own))
    have hnoted : (session.note (.applied own)).Formed := ⟨hformed.staged, hformed.labels⟩
    rcases hcancels : cancelAll (mapper value).cancels (session.note (.applied own)) with
      ⟨_ | _, marked⟩
    · rw [hcancels] at hmarks
      exact hmarks.branches own
    · rw [hcancels] at hmarks
      dsimp only
      cases hchosen : (mapper value).result.bind marked.stageCall with
      | error failure => exact hmarks.branches own
      | ok chosen =>
          obtain ⟨stage, hresult, hstage⟩ := exists_stageCall_of_bind hchosen
          have hmarked := hnoted.of_marks hmarks
          obtain ⟨hadds, hlt⟩ := stageCall_eq_ok hmarked hstage
          refine hmarks.trans_branches ?_
          refine branches_setNext (hmarks.calls.size ▸ hown) hadds.size hlt ?_
          intro hlabelled hfresh
          rw [call, (hmarks.calls.plan own).trans hplan] at hfresh
          cases hfresh with
          | flatMapped _ _ hnew hnext =>
              refine sprouts_of_stageCall hmarked hstage hlabelled (hnew value stage hresult) ?_
              exact fun plan hmeaning => hnext value plan (hresult ▸ hmeaning)

theorem branches_resume
    {session : Session}
    {frame : Frame}
    (hformed : session.Formed)
    (hown : frame.call < session.calls.size)
    (hfits : frame.Fits (session.call frame.call).plan)
    (outcome : Outcome) :
    Branches names frame.call session (session.resume frame outcome).2 := by
  cases outcome with
  | error failure =>
      cases frame with
      | listing own search => exact (marks_setPhase session own .failed).branches own
      | fetching own search ids => exact (marks_setPhase session own .failed).branches own
      | _ => exact Or.inl rfl
  | ok value =>
      cases frame with
      | leaf own recording =>
          rw [resume]
          cases recording.failure <;> exact Or.inl rfl
      | reply own search reply => exact Or.inl rfl
      | next own => exact Or.inl rfl
      | mapped own mapper =>
          show Branches names own (session.note (.applied own)) _
          have hmarks := marks_cancelAll (mapper value).cancels (session.note (.applied own))
          rw [resume, applyMapper]
          rcases hcancels : cancelAll (mapper value).cancels (session.note (.applied own)) with
            ⟨_ | _, marked⟩ <;>
          · rw [hcancels] at hmarks
            exact hmarks.branches own
      | first own mapper =>
          obtain ⟨first, hplan⟩ := hfits
          exact branches_applyFlatMapper hformed hown hplan value
      | listing own search =>
          rw [resume, fetchListed]
          split
          · exact branches_passPhase fun marked _ => Or.inl rfl
          · exact branches_passPhase fun marked hmarks =>
              branches_issue (hmarks.calls.size ▸ hown) _ _
      | fetching own search ids =>
          rw [resume, assembleFetched]
          refine branches_passPhase fun marked _ => ?_
          cases Trace.assemble search.criteria search.strict ids value.spans with
          | error error => exact (marks_setPhase marked own .failed).branches own
          | ok traces =>
              have hmarks := marks_enterPhase marked own .done
              dsimp only
              rcases hresult : marked.enterPhase own .done with ⟨_ | _, after⟩ <;>
              · rw [hresult] at hmarks
                exact hmarks.branches own

/-! ### Moves -/

/-- What a move does to the calls below others: at most one call delegates to another one than
before, and that is a new one when the call's mappers only build new calls. -/
structure Ramifies (names : Names) (own : CallId) (session after : Session) : Prop where
  size : session.calls.size ≤ after.calls.size
  plan : ∀ id < session.calls.size, (after.call id).plan = (session.call id).plan
  others : ∀ id < session.calls.size, id ≠ own →
    (after.call id).delegates = (session.call id).delegates
  own : own < session.calls.size → ∀ id ∈ (after.call own).delegates,
    id ∈ (session.call own).delegates ∨ id < after.calls.size ∧
      (session.Labelled names → (session.call own).plan.BuildsFresh names →
        after.calls.Sprouts names session.calls.size id)
  fresh : ∀ id < after.calls.size, session.calls.size ≤ id →
    ∀ below ∈ (after.call id).delegates, below < after.calls.size

theorem ramifies_of_resembles
    {session after : Session}
    (h : session.calls.Resembles after.calls)
    (own : CallId) :
    Ramifies names own session after := by
  refine ⟨Nat.le_of_eq h.size.symm, fun id _ => h.plan id, fun id _ _ => h.delegates id, ?_, ?_⟩
  · exact fun _ id hid => Or.inl (h.delegates own ▸ hid)
  · exact fun id hlt hle => absurd (h.size ▸ hlt) (Nat.not_lt.mpr hle)

theorem ramifies_of_calls_eq
    {session after : Session}
    (h : after.calls = session.calls)
    (own : CallId) :
    Ramifies names own session after :=
  ramifies_of_resembles (h ▸ Calls.Resembles.refl session.calls) own

theorem delegates_of_isFresh
    {calls : Calls}
    {id : CallId}
    (h : calls.IsFresh id) :
    ∀ below ∈ (calls.get id).delegates, below < id := by
  obtain ⟨plan, first, hget, hlt, _⟩ := h
  intro below hbelow
  rw [hget] at hbelow
  exact hlt below (Calls.first_of_mem_delegates_fresh hbelow)

theorem ramifies_of_adds
    {session after : Session}
    (h : session.calls.Adds after.calls)
    (own : CallId) :
    Ramifies names own session after := by
  refine ⟨h.size, fun id hid => congrArg Call.plan (h.old id hid),
    fun id hid _ => congrArg Call.delegates (h.old id hid), ?_, ?_⟩
  · exact fun hown id hid => Or.inl (congrArg Call.delegates (h.old own hown) ▸ hid)
  · exact fun id hlt hle below hbelow =>
      Nat.lt_trans (delegates_of_isFresh (h.fresh id hlt hle) below hbelow) hlt

/-- What a piece of a body does. -/
theorem ramifies_of_piece
    {session : Session}
    {own : CallId}
    {result : Progress × Session}
    (hpiece : Piece own session result)
    (hbranches : Branches names own session result.2) :
    Ramifies names own session result.2 := by
  have hgrows := hpiece.grows
  refine ⟨hgrows.size, hgrows.plan, ?_, ?_, ?_⟩
  · exact fun id hid hne => Call.delegates_congr (hgrows.plan id hid) (hgrows.first id hid)
      (hgrows.next id hid hne)
  · intro hown id hid
    obtain ⟨hheeds, hstage⟩ := Call.mem_delegates_iff.mp hid
    have hbefore : (session.call own).plan.ignoresCancel = false := hgrows.plan own hown ▸ hheeds
    rcases hstage with hfirst | hnext
    · have hsame := (hgrows.first own hown).symm.trans hfirst
      exact Or.inl (Call.mem_delegates_iff.mpr ⟨hbefore, Or.inl hsame⟩)
    · rcases hbranches with hsame | ⟨stage, hlt, hstage, hsprouts⟩
      · exact Or.inl (Call.mem_delegates_iff.mpr ⟨hbefore, Or.inr (hsame.symm.trans hnext)⟩)
      · cases hstage.symm.trans hnext
        exact Or.inr ⟨hlt, hsprouts⟩
  · exact fun id hlt hle below hbelow =>
      Nat.lt_trans (delegates_of_isFresh (hgrows.fresh id hlt hle) below hbelow) hlt

/-- What stays alike before and after does not matter. -/
theorem Ramifies.of_resembles
    {session middle middle' after : Session}
    {own : CallId}
    (h : Ramifies names own middle middle')
    (hbefore : session.calls.Resembles middle.calls)
    (hlabels : middle.labels = session.labels)
    (hafter : middle'.calls.Resembles after.calls) :
    Ramifies names own session after := by
  have hsize := hbefore.size
  have hsize' := hafter.size
  refine ⟨?_, ?_, ?_, ?_, ?_⟩
  · exact hsize' ▸ hsize ▸ h.size
  · exact fun id hid => (hafter.plan id).trans
      ((h.plan id (hsize.symm ▸ hid)).trans (hbefore.plan id))
  · exact fun id hid hne => (hafter.delegates id).trans
      ((h.others id (hsize.symm ▸ hid) hne).trans (hbefore.delegates id))
  · intro hown id hid
    rcases h.own (hsize.symm ▸ hown) id ((hafter.delegates own) ▸ hid) with hold | ⟨hlt, hsprouts⟩
    · exact Or.inl (hbefore.delegates own ▸ hold)
    · refine Or.inr ⟨hsize'.symm ▸ hlt, fun hlabelled hfresh => ?_⟩
      have hplan : (middle.call own).plan = (session.call own).plan := hbefore.plan own
      have hnew := hsprouts (hlabelled.congr hlabels hbefore.plan) (hplan.symm ▸ hfresh)
      rw [hsize] at hnew
      exact hnew.of_eq (Nat.le_of_eq hsize'.symm) (fun other _ _ => hafter.plan other)
        fun other _ _ => hafter.delegates other
  · intro id hlt hle below hbelow
    rw [hsize']
    exact h.fresh id (hsize' ▸ hlt) (hsize.symm ▸ hle) below ((hafter.delegates id) ▸ hbelow)

/-- A step of a task. -/
theorem ramifies_step
    {session : Session}
    (h : session.Sound) :
    ∃ own, Ramifies names own session session.step := by
  rcases hactive : session.active with _ | ⟨task, own | outcome⟩
  · refine ⟨0, ramifies_of_calls_eq ?_ 0⟩
    rcases step_of_idle hactive with heq | ⟨runner, rest, _, heq⟩
    · rw [heq]
    · rw [heq, calls_wake]
  · refine ⟨own, ?_⟩
    by_cases hstate : (session.call own).state = .new
    · cases hflag : (session.call own).canceled with
      | true =>
          rw [step_before_of_canceled hactive hstate hflag]
          exact ramifies_of_resembles (Calls.resembles_setState session.calls own .canceled) own
      | false =>
          have hengaged := engaged_opening h hactive hstate
          rw [step_before_of_new hactive hstate hflag]
          exact (ramifies_of_piece (piece_opening h hactive hstate)
            (branches_begin hengaged.call)).of_resembles
            (Calls.resembles_setState session.calls own .executing) rfl
            (resembles_advance _ task own _)
    · rw [step_before_of_ne_new hactive hstate]
      refine ramifies_of_calls_eq ?_ own
      rfl
  · cases hstack : (session.task task).stack with
    | nil =>
        refine ⟨0, ramifies_of_calls_eq ?_ 0⟩
        rw [step_after_nil hactive hstack, calls_report]
    | cons frame rest =>
        have hengaged := engaged_reopening h hactive hstack
        refine ⟨frame.call, ?_⟩
        rw [step_after_cons hactive hstack]
        exact (ramifies_of_piece (piece_reopening h hactive hstack) (branches_resume hengaged.formed
          hengaged.call (h.steady.fits hstack) outcome)).of_resembles
          (Calls.Resembles.refl session.calls) rfl (resembles_advance _ task frame.call _)

/-- Every move lets one call grow at most. -/
theorem ramifies_of_move
    {session after : Session}
    (h : session.Sound)
    (hmove : Move session after) :
    ∃ own, Ramifies names own session after := by
  rcases adds_of_move h.steady hmove with rfl | ⟨_, id, _, rfl⟩ | hadds
  · exact ramifies_step h
  · exact ⟨0, ramifies_of_resembles (Calls.marks_cancel session.calls id).resembles 0⟩
  · exact ⟨0, ramifies_of_adds hadds 0⟩

/-! ### What stays apart -/

variable {session after : Session} {own root other : CallId}

/-- Whatever a call delegates to exists. -/
theorem closed_of_reachable (h : session.Reachable) : session.calls.Closed := by
  have hboth : session.Sound ∧ session.calls.Closed := by
    refine h.induct (motive := fun session => session.Sound ∧ session.calls.Closed)
      (fun backend => ⟨sound_start backend, fun id hid => absurd hid (Nat.not_lt_zero id)⟩) ?_
    rintro session after ⟨hsound, hclosed⟩ hmove
    refine ⟨sound_of_move hsound hmove, fun id hid below hbelow => ?_⟩
    obtain ⟨own, hramifies⟩ := @ramifies_of_move (fun _ => .error .endless) _ _ hsound hmove
    by_cases hold : id < session.calls.size
    · by_cases hsame : id = own
      · subst hsame
        rcases hramifies.own hold below hbelow with hbefore | ⟨hlt, _⟩
        · exact Nat.lt_of_lt_of_le (hclosed id hold below hbefore) hramifies.size
        · exact hlt
      · have hbefore := hramifies.others id hold hsame ▸ hbelow
        exact Nat.lt_of_lt_of_le (hclosed id hold below hbefore) hramifies.size
    · exact hramifies.fresh id hid (Nat.not_lt.mp hold) below hbelow
  exact hboth.2

/-- What is below a tame call was so before, or it is new: then a call below it has grown. -/
theorem below_of_ramifies
    {id : CallId}
    (h : Ramifies names own session after)
    (hclosed : session.calls.Closed)
    (hlabelled : session.Labelled names)
    (hroot : root < session.calls.size)
    (htame : session.calls.Tame names root)
    (hbelow : after.calls.Below root id) :
    session.calls.Below root id ∨ session.calls.Below root own ∧ ∃ stage,
      after.calls.Sprouts names session.calls.size stage ∧ after.calls.Below stage id := by
  induction hbelow with
  | refl => exact Or.inl Relation.ReflTransGen.refl
  | @tail middle last _ hlast ih =>
      rcases ih with hold | ⟨hown, stage, hsprouts, hnew⟩
      · have hlt := hclosed.lt_of_below hroot hold
        by_cases hsame : middle = own
        · subst hsame
          rcases h.own hlt last hlast with hbefore | ⟨_, hsprouts⟩
          · exact Or.inl (hold.tail hbefore)
          · exact Or.inr ⟨hold, last, hsprouts hlabelled (htame middle hold),
              Relation.ReflTransGen.refl⟩
        · exact Or.inl (hold.tail (h.others middle hlt hsame ▸ hlast))
      · exact Or.inr ⟨hown, stage, hsprouts, hnew.tail hlast⟩

theorem tame_of_ramifies
    (h : Ramifies names own session after)
    (hclosed : session.calls.Closed)
    (hlabelled : session.Labelled names)
    (hroot : root < session.calls.size)
    (htame : session.calls.Tame names root) :
    after.calls.Tame names root := by
  intro id hbelow
  rcases below_of_ramifies h hclosed hlabelled hroot htame hbelow with
    hold | ⟨_, stage, hsprouts, hnew⟩
  · exact h.plan id (hclosed.lt_of_below hroot hold) ▸ htame id hold
  · exact (hsprouts id hnew).2.2

theorem apart_of_ramifies
    (h : Ramifies names own session after)
    (hclosed : session.calls.Closed)
    (hlabelled : session.Labelled names)
    (hroot : root < session.calls.size)
    (hother : other < session.calls.size)
    (htame : session.calls.Tame names root)
    (htameOther : session.calls.Tame names other)
    (hapart : session.calls.Apart root other) :
    after.calls.Apart root other := by
  intro id hbelow hbelow'
  rcases below_of_ramifies h hclosed hlabelled hroot htame hbelow with
    hold | ⟨hown, stage, hsprouts, hnew⟩
  · rcases below_of_ramifies h hclosed hlabelled hother htameOther hbelow' with
      hold' | ⟨_, stage', hsprouts', hnew'⟩
    · exact hapart id hold hold'
    · exact absurd (hclosed.lt_of_below hroot hold) (Nat.not_lt.mpr (hsprouts' id hnew').1)
  · rcases below_of_ramifies h hclosed hlabelled hother htameOther hbelow' with
      hold' | ⟨hown', _⟩
    · exact absurd (hclosed.lt_of_below hother hold') (Nat.not_lt.mpr (hsprouts id hnew).1)
    · exact hapart own hown hown'

/-! ### What is done to a call -/

/-- Something is done to a call: it is executed, or a call below it, or goes on with its body, while
nobody watches it, or one of them is canceled. -/
inductive Concerns (root : CallId) : Session → Session → Prop
  | step (session : Session) (own : CallId)
      (hacts : session.Acts own)
      (hbelow : session.calls.Below root own)
      (hunwatched : session.IsUnwatched own) :
      Concerns root session session.step
  | cancel (session : Session) (id : CallId)
      (hbelow : session.calls.Below root id) :
      Concerns root session (session.cancel id).2

theorem isPure_of_buildsFresh
    {plan : Plan}
    (h : plan.BuildsFresh names) :
    plan.IsPure := by
  cases h with
  | mapped _ hpure => exact hpure
  | flatMapped _ hpure _ _ => exact hpure
  | _ => trivial

/-- What is done to a tame call leaves all calls below another one alone. -/
theorem call_of_concerns
    {id : CallId}
    (h : session.Sound)
    (hclosed : session.calls.Closed)
    (hother : other < session.calls.size)
    (htame : session.calls.Tame names root)
    (hapart : session.calls.Apart root other)
    (hconcerns : Concerns root session after)
    (hbelow : session.calls.Below other id) :
    after.call id = session.call id := by
  cases hconcerns with
  | step own hacts hown hunwatched =>
      have halters := alters_step h hacts (isPure_of_buildsFresh (htame own hown)) hunwatched
      refine halters.others id (hclosed.lt_of_below hother hbelow) ?_
      rintro rfl
      exact hapart id hown hbelow
  | cancel canceled hcanceled =>
      refine Calls.get_cancel_of_not_below fun hreaches => ?_
      exact hapart id (hcanceled.trans hreaches) hbelow

end Session
end TraceArchive
