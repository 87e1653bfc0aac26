import TraceArchive.Proofs.Session.Evaluation
import TraceArchive.Proofs.Session.Territories

/-!
# Clones

A clone is a new call of the plan of another one, with new calls for all stages.  When the mappers of
the tree only build new calls, clone and original never come to share a call, and an undisturbed
execution of the clone repeats what an execution of the original has shown.

* `LabelledRun`: a run in which labels stand for the same plans all the time.
* `Separate`, `Separate.of_run`: tame calls with nothing below them in common stay so.
* `separate_define`: a clone has nothing in common with its original.
* `Undisturbed.repeats`: two undisturbed executions of one plan.
* `clone_isIndependent`: clones are new and independent.
-/

set_option autoImplicit false

namespace TraceArchive

open TraceArchive.Computation

namespace Session

variable {names : Names} {answers : Answers}
variable {session after : Session} {one other original : CallId}

/-- A run in which labels stand, all the time, for calls of the plans that they are said to stand
for. -/
def LabelledRun (names : Names) (session after : Session) : Prop :=
  session.Labelled names ∧
    Relation.ReflTransGen (fun middle next => Move middle next ∧ next.Labelled names) session after

/-- Two tame calls that have nothing below them in common. -/
structure Separate (names : Names) (one other : CallId) (session : Session) : Prop where
  lt : one < session.calls.size
  lt' : other < session.calls.size
  tame : session.calls.Tame names one
  tame' : session.calls.Tame names other
  apart : session.calls.Apart one other

/-- They stay so. -/
theorem Separate.of_move
    (h : Separate names one other session)
    (hreachable : session.Reachable)
    (hlabelled : session.Labelled names)
    (hmove : Move session after) :
    Separate names one other after := by
  have hclosed := closed_of_reachable hreachable
  obtain ⟨own, hramifies⟩ := ramifies_of_move (sound_of_reachable hreachable) hmove
  exact ⟨Nat.lt_of_lt_of_le h.lt hramifies.size, Nat.lt_of_lt_of_le h.lt' hramifies.size,
    tame_of_ramifies hramifies hclosed hlabelled h.lt h.tame,
    tame_of_ramifies hramifies hclosed hlabelled h.lt' h.tame',
    apart_of_ramifies hramifies hclosed hlabelled h.lt h.lt' h.tame h.tame' h.apart⟩

theorem Separate.of_run
    (h : Separate names one other session)
    (hreachable : session.Reachable)
    (hrun : LabelledRun names session after) :
    after.Reachable ∧ Separate names one other after := by
  have hall : after.Reachable ∧ after.Labelled names ∧ Separate names one other after := by
    obtain ⟨hlabelled, hmoves⟩ := hrun
    induction hmoves with
    | refl => exact ⟨hreachable, hlabelled, h⟩
    | tail _ hlast ih =>
        obtain ⟨hreached, hnamed, hseparate⟩ := ih
        exact ⟨hreached.of_move hlast.1, hlast.2, hseparate.of_move hreached hnamed hlast.1⟩
  exact ⟨hall.1, hall.2.2⟩

/-- New calls are not below old ones. -/
theorem below_of_adds
    {calls calls' : Calls}
    {root id : CallId}
    (h : calls.Adds calls')
    (hclosed : calls.Closed)
    (hroot : root < calls.size)
    (hbelow : calls'.Below root id) :
    calls.Below root id :=
  Calls.below_of_delegates_eq (fun middle hmiddle =>
    congrArg Call.delegates (h.old middle (hclosed.lt_of_below hroot hmiddle))) hbelow

/-- A clone has nothing in common with its original. -/
theorem separate_define
    (h : session.Reachable)
    (horiginal : original < session.calls.size)
    (htame : session.calls.Tame names original)
    (label : String) :
    Separate names original (session.calls.add (session.call original).plan).2
      (session.define label (session.call original).plan) := by
  have hadded := Calls.added_add session.calls (session.call original).plan
  have hsprouts := Calls.sprouts_add session.calls (htame original Relation.ReflTransGen.refl)
  have hclosed := closed_of_reachable h
  refine ⟨Nat.lt_of_lt_of_le horiginal hadded.adds.size, hadded.lt, ?_, hsprouts.tame, ?_⟩
  · intro id hbelow
    have hold := below_of_adds hadded.adds hclosed horiginal hbelow
    have hsame := hadded.adds.old id (hclosed.lt_of_below horiginal hold)
    exact congrArg Call.plan hsame ▸ htame id hold
  · intro id hbelow hbelow'
    have hold := below_of_adds hadded.adds hclosed horiginal hbelow
    exact absurd (hclosed.lt_of_below horiginal hold) (Nat.not_lt.mpr (hsprouts id hbelow').1)

/-! ### Repeated executions -/

/-- Once an undisturbed execution has returned, every other one of the same plan shows the same
things in the same order, goes on until it returns, and does so with the same outcome. -/
theorem Undisturbed.repeats
    {plan : Plan}
    {earlier ended later : Session}
    {task task' : TaskId}
    {steps steps' : Nat}
    {told told' : List Observation}
    (hplan : plan.BuildsFresh names)
    (h : earlier.Reachable)
    (hunused : earlier.calls.Unused plan one)
    (hundisturbed : Undisturbed names answers one task earlier steps told ended)
    (hfinal : (ended.call one).state.isFinal = true)
    (h' : later.Reachable)
    (hunused' : later.calls.Unused plan other)
    (hundisturbed' : Undisturbed names answers other task' later steps' told' after) :
    after.events told' <+: ended.events told ∧ steps' ≤ (ended.events told).length ∧
      ((after.call other).state.isFinal = false →
        GoesOn names answers other task' later steps' told' after) ∧
      ((after.call other).state.isFinal = true → after.events told' = ended.events told ∧
        ∃ outcome, ended.Returns one task (earlier.task task).stack outcome ∧
          after.Returns other task' (later.task task').stack outcome) := by
  obtain ⟨body, hbody⟩ := hplan.exists_computes answers
  obtain ⟨hreturns, hwhole, _⟩ := hundisturbed.returns h hunused hbody hfinal
  have hall : ended.events told = (within plan body 0).1 := (congrArg Prod.fst hwhole).symm
  obtain ⟨hseen, hsteps⟩ := hundisturbed'.shows h' hunused' hbody
  rw [hall]
  refine ⟨hseen, Nat.le_trans hsteps hseen.length_le, hundisturbed'.continues h' hunused' hbody,
    fun hfinal' => ?_⟩
  obtain ⟨hreturns', hwhole', _⟩ := hundisturbed'.returns h' hunused' hbody hfinal'
  exact ⟨(congrArg Prod.fst hwhole').symm, _, hreturns, hreturns'⟩

/-- **Clones are new and independent.**  Whatever has become of a call whose tree only builds new
calls, its clone is an unused call of the same plan: every call below it is a new one, neither
executed nor canceled.  From then on, whatever is done to the clone leaves every call below the
original as it is, and the other way round.  And once an undisturbed first execution of the original
has returned, an undisturbed execution of the clone shows the same things in the same order, the
searches among them, in no more steps than there is to see; it goes on until it returns, and does so
with the same outcome. -/
theorem clone_isIndependent
    (h : session.Reachable)
    (hidle : session.IsIdle)
    (horiginal : original < session.calls.size)
    (htame : session.calls.Tame names original)
    (label : String) :
    let plan := (session.call original).plan
    let cloned := session.defineClone label original
    let clone := (session.clone original).2
    cloned.calls.Unused plan clone ∧
      (∀ id, cloned.calls.Below clone id →
        session.calls.size ≤ id ∧ ∃ plan first, cloned.call id = Call.fresh plan first) ∧
      (∀ later after, LabelledRun names cloned later →
        (Concerns clone later after → ∀ id, later.calls.Below original id →
          after.call id = later.call id) ∧
        (Concerns original later after → ∀ id, later.calls.Below clone id →
          after.call id = later.call id)) ∧
      ∀ answers earlier ended task steps told, earlier.Reachable →
        earlier.calls.Unused plan original →
        Undisturbed names answers original task earlier steps told ended →
        (ended.call original).state.isFinal = true →
        ∀ later after task' steps' told', later.Reachable → later.calls.Unused plan clone →
          Undisturbed names answers clone task' later steps' told' after →
          after.events told' <+: ended.events told ∧ steps' ≤ (ended.events told).length ∧
            ((after.call clone).state.isFinal = false →
              GoesOn names answers clone task' later steps' told' after) ∧
            ((after.call clone).state.isFinal = true → after.events told' = ended.events told ∧
              ∃ outcome, ended.Returns original task (earlier.task task).stack outcome ∧
                after.Returns clone task' (later.task task').stack outcome) := by
  have hformed := (sound_of_reachable h).formed
  dsimp only
  rw [hformed.defineClone_eq_define horiginal, hformed.clone_eq_add horiginal]
  have hplan := htame original Relation.ReflTransGen.refl
  have hadded := Calls.added_add session.calls (session.call original).plan
  refine ⟨Calls.unused_add session.calls _, ?_, ?_, ?_⟩
  · intro id hbelow
    obtain ⟨hle, hlt, _⟩ := Calls.sprouts_add session.calls hplan id hbelow
    obtain ⟨plan, first, hget, _⟩ := hadded.adds.fresh id hlt hle
    exact ⟨hle, plan, first, hget⟩
  · intro later after hrun
    have hcloned := h.of_move (Move.define session label (session.call original).plan hidle)
    obtain ⟨hreachable, hseparate⟩ := (separate_define h horiginal htame label).of_run hcloned hrun
    have hsound := sound_of_reachable hreachable
    have hclosed := closed_of_reachable hreachable
    exact ⟨fun hconcerns id => call_of_concerns hsound hclosed hseparate.lt hseparate.tame'
        hseparate.apart.symm hconcerns,
      fun hconcerns id => call_of_concerns hsound hclosed hseparate.lt' hseparate.tame
        hseparate.apart hconcerns⟩
  · intro answers earlier ended task steps told h hunused hundisturbed hfinal
      later after task' steps' told' h' hunused' hundisturbed'
    exact hundisturbed.repeats hplan h hunused hfinal h' hunused' hundisturbed'

theorem buildsFresh_failingLate (names : Names) : failingLate.BuildsFresh names := by
  refine .mapped (.flatMapped (.recording _) (fun _ => rfl) ?_ ?_) fun _ => rfl
  · rintro value stage ⟨⟩
    exact trivial
  · rintro value plan ⟨⟩
    exact .constant value

/-- While the leaf waits, the tree is still the one that was made for the plan. -/
theorem tame_waitingLeaf (names : Names) : waitingLeaf.calls.Tame names 2 := by
  have hsprouts := Calls.sprouts_add #[] (buildsFresh_failingLate names)
  have hsize : (Calls.add #[] failingLate).1.size ≤ waitingLeaf.calls.size := Nat.le_refl 3
  refine (hsprouts.of_eq hsize ?_ ?_).tame
  · exact fun
      | 0, _, _ => rfl
      | 1, _, _ => rfl
      | 2, _, _ => rfl
  · exact fun
      | 0, _, _ => rfl
      | 1, _, _ => rfl
      | 2, _, _ => rfl

theorem reachable_waitingLeaf : waitingLeaf.Reachable :=
  ((reachable_comingToFailure.of_move (Move.step _)).of_move (Move.step _)).of_move (Move.step _)

/-- A clone of a call that is executing may be canceled without harm to that. -/
theorem clone_isIndependent_waitingLeaf :
    let cloned := waitingLeaf.defineClone "clone" 2
    cloned.calls.Unused failingLate 5 ∧
      ∀ id, cloned.calls.Below 2 id → (cloned.cancel 5).2.call id = cloned.call id := by
  have hclone := clone_isIndependent reachable_waitingLeaf rfl (by decide +kernel)
    (tame_waitingLeaf fun label => .error (.unknownCall label)) "clone"
  refine ⟨hclone.1, (hclone.2.2.1 _ _ ⟨?_, Relation.ReflTransGen.refl⟩).1
    (.cancel _ 5 Relation.ReflTransGen.refl)⟩
  rintro label plan id ⟨⟩

end Session
end TraceArchive
