import TraceArchive.Proofs.Session.Extension

/-!
# The life of a call

A new call is executed or refused; a call that is executed ends, and then nothing more becomes of
it.

* `CallState.Next`, `CallState.Leads`: what the state of a call may become.
* `Tally`: how often the body of a call in some state has begun and ended.
* `tallied_of_reachable`, `leads_of_run`: both, for every call of every session.
* `lifecycle`: no body begins twice, final states stay, and a call that is not new is refused.
-/

set_option autoImplicit false

namespace TraceArchive

/-- The next state of a call: a new call is executed or refused, one that is executed ends. -/
inductive CallState.Next : CallState → CallState → Prop
  | start : Next .new .executing
  | refuse : Next .new .canceled
  | finish {state : CallState} (hfinal : state.isFinal = true) : Next .executing state

/-- What the state of a call may become in time. -/
abbrev CallState.Leads : CallState → CallState → Prop :=
  Relation.ReflTransGen CallState.Next

theorem CallState.not_next_of_isFinal
    {state after : CallState}
    (h : state.isFinal = true) :
    ¬ CallState.Next state after := by
  intro hnext
  cases hnext <;> simp [CallState.isFinal] at h

/-- A final state stays. -/
theorem CallState.Leads.eq_of_isFinal
    {state after : CallState}
    (h : CallState.Leads state after)
    (hfinal : state.isFinal = true) :
    after = state := by
  induction h with
  | refl => rfl
  | tail _ hlast ih =>
      subst ih
      exact absurd hlast (CallState.not_next_of_isFinal hfinal)

/-- No call becomes new again. -/
theorem CallState.not_leads_new
    {state : CallState}
    (h : state ≠ .new) :
    ¬ CallState.Leads state .new := by
  intro hleads
  cases hleads with
  | refl => exact h rfl
  | tail _ hlast =>
      cases hlast with
      | finish hfinal => cases hfinal

/-- How often the body of a call has begun and ended: a new one never, one that is executed has
begun once, and one in a final state has also ended, unless it was refused. -/
inductive Tally : CallState → Nat → Nat → Prop
  | new : Tally .new 0 0
  | executing : Tally .executing 1 0
  | refused : Tally .canceled 0 0
  | ended {state : CallState} (hfinal : state.isFinal = true) : Tally state 1 1

theorem Tally.begun_le_one
    {state : CallState}
    {begun ended : Nat}
    (h : Tally state begun ended) :
    begun ≤ 1 := by
  cases h <;> decide

/-- Only calls in a final state have ended. -/
theorem Tally.isFinal_of_pos
    {state : CallState}
    {begun ended : Nat}
    (h : Tally state begun ended)
    (hended : 0 < ended) :
    state.isFinal = true := by
  cases h with
  | new => exact absurd hended (by decide)
  | executing => exact absurd hended (by decide)
  | refused => rfl
  | ended hfinal => exact hfinal

/-- The body of a call begins. -/
def Observation.begins (id : CallId) : Observation → Bool
  | .began call => call = id
  | _ => false

/-- The body of a call ends. -/
def Observation.ends (id : CallId) : Observation → Bool
  | .concluded call _ => call = id
  | _ => false

namespace Session

/-- How often the body of a call has begun. -/
def beginnings (session : Session) (id : CallId) : Nat :=
  session.history.countP (Observation.begins id)

/-- How often the body of a call has ended. -/
def endings (session : Session) (id : CallId) : Nat :=
  session.history.countP (Observation.ends id)

/-- The state of a call agrees with how often its body has begun and ended. -/
def Tallied (session : Session) (id : CallId) : Prop :=
  Tally (session.call id).state (session.beginnings id) (session.endings id)

/-- The state of a call goes on as it may, and still agrees with its history. -/
structure Ages (session after : Session) (id : CallId) : Prop where
  leads : CallState.Leads (session.call id).state (after.call id).state
  tallied : session.Tallied id → after.Tallied id

theorem Ages.trans
    {session middle after : Session}
    {id : CallId}
    (h : Ages session middle id)
    (h' : Ages middle after id) :
    Ages session after id :=
  ⟨h.leads.trans h'.leads, fun htallied => h'.tallied (h.tallied htallied)⟩

/-- What a move adds to the counts of a call is counted in what it tells. -/
theorem Extends.counts
    {own : CallId}
    {told : List Observation}
    {session after : Session}
    (h : Extends own told session after)
    (id : CallId) :
    after.beginnings id = told.countP (Observation.begins id) + session.beginnings id ∧
      after.endings id = told.countP (Observation.ends id) + session.endings id := by
  rw [beginnings, endings, h.history, List.countP_append, List.countP_append]
  exact ⟨rfl, rfl⟩

/-- A call whose body neither begins nor ends may still be refused. -/
theorem Extends.ages_of_not_told
    {own id : CallId}
    {told : List Observation}
    {session after : Session}
    (h : Extends own told session after)
    (hstate : (after.call id).state = (session.call id).state ∨
      (session.call id).state = .new ∧ (after.call id).state = .canceled)
    (htold : ∀ entry ∈ told, entry.begins id = false ∧ entry.ends id = false) :
    Ages session after id := by
  obtain ⟨hbegun, hended⟩ := h.counts id
  have hbegins : told.countP (Observation.begins id) = 0 :=
    List.countP_eq_zero.mpr fun entry hentry => by simp [htold entry hentry]
  have hends : told.countP (Observation.ends id) = 0 :=
    List.countP_eq_zero.mpr fun entry hentry => by simp [htold entry hentry]
  rw [hbegins, Nat.zero_add] at hbegun
  rw [hends, Nat.zero_add] at hended
  rcases hstate with hsame | ⟨hnew, hcanceled⟩
  · refine ⟨hsame ▸ .refl, fun htallied => ?_⟩
    rw [Tallied, hbegun, hended, hsame]
    exact htallied
  · refine ⟨?_, fun htallied => ?_⟩
    · rw [hnew, hcanceled]
      exact .single .refuse
    · rw [Tallied, hnew] at htallied
      rw [Tallied, hbegun, hended, hcanceled]
      generalize session.beginnings id = begun at htallied
      generalize session.endings id = ended at htallied
      cases htallied with
      | new => exact .refused
      | ended hfinal => cases hfinal

theorem not_counted_of_subject
    {entry : Observation}
    {own id : CallId}
    (h : entry.subject = some own)
    (hne : id ≠ own) :
    entry.begins id = false ∧ entry.ends id = false := by
  cases entry with
  | began call =>
      cases h
      exact ⟨decide_eq_false (Ne.symm hne), rfl⟩
  | concluded call outcome =>
      cases h
      exact ⟨rfl, decide_eq_false (Ne.symm hne)⟩
  | _ => exact ⟨rfl, rfl⟩

theorem not_counted_of_isSearching
    {entry : Observation}
    (h : entry.isSearching = true)
    (id : CallId) :
    entry.begins id = false ∧ entry.ends id = false := by
  cases entry with
  | issued call stage => exact ⟨rfl, rfl⟩
  | searched call asked => exact ⟨rfl, rfl⟩
  | _ => cases h

/-- The other calls are left alone, or refused. -/
theorem Extends.ages_of_ne
    {own id : CallId}
    {told : List Observation}
    {session after : Session}
    (h : Extends own told session after)
    (hne : id ≠ own) :
    Ages session after id :=
  h.ages_of_not_told (h.state id hne) fun entry hentry =>
    not_counted_of_subject (h.subject entry hentry) hne

theorem Turns.ages
    {session after : Session}
    (h : Turns session after)
    (id : CallId) :
    Ages session after id :=
  (h.extends id).ages_of_not_told (h.rests.state_eq_or id) (by simp)

/-- The body of a new call begins. -/
theorem ages_opening
    {session : Session}
    {own : CallId}
    (hown : own < session.calls.size)
    (hstate : (session.call own).state = .new)
    (id : CallId) :
    Ages session (session.opening own) id := by
  have hextends := extends_opening session own
  by_cases hne : id = own
  · subst hne
    have hafter : ((session.opening id).call id).state = .executing :=
      congrArg Call.state ((Calls.get_modify hown _ id).trans (if_pos rfl))
    obtain ⟨hbegun, hended⟩ := hextends.counts id
    refine ⟨?_, fun htallied => ?_⟩
    · rw [hstate, hafter]
      exact .single .start
    · rw [Tallied, hstate] at htallied
      rw [Tallied, hafter, hbegun, hended]
      generalize session.beginnings id = begun at htallied
      generalize session.endings id = ended at htallied
      cases htallied with
      | new => simpa [Observation.begins, Observation.ends] using Tally.executing
      | ended hfinal => cases hfinal
  · exact hextends.ages_of_ne hne

/-- While a body runs, no other begins or ends. -/
theorem Piece.ages
    {own : CallId}
    {told : List Observation}
    {session : Session}
    {result : Progress × Session}
    (h : Piece own session result)
    (htells : Tells own told session result.2)
    (id : CallId) :
    Ages session result.2 id :=
  (h.extends htells).ages_of_not_told (Or.inl (h.state id)) fun entry hentry =>
    not_counted_of_isSearching (htells.searching entry hentry) id

theorem isFinal_conclusion (call : Call) (outcome : Outcome) :
    (conclusion call outcome).1.isFinal = true := by
  cases outcome with
  | ok value =>
      rw [conclusion]
      split <;> rfl
  | error failure =>
      cases failure with
      | interrupted => rfl
      | _ =>
          simp only [conclusion]
          split <;> rfl

/-- A body that ends leaves its call in a final state. -/
theorem ages_advance
    {session : Session}
    {own : CallId}
    (hown : own < session.calls.size)
    (hstate : (session.call own).state = .executing)
    (id : TaskId)
    (progress : Progress)
    (other : CallId) :
    Ages session (session.advance id own progress) other := by
  have hextends := extends_advance session id own progress
  by_cases hne : other = own
  · subst hne
    cases progress with
    | ends outcome =>
        have hafter : ((session.advance id other (.ends outcome)).call other).state =
            (conclusion (session.call other) outcome).1 :=
          congrArg Call.state ((Calls.get_modify hown _ other).trans (if_pos rfl))
        have hfinal := isFinal_conclusion (session.call other) outcome
        obtain ⟨hbegun, hended⟩ := hextends.counts other
        refine ⟨?_, fun htallied => ?_⟩
        · rw [hstate, hafter]
          exact .single (.finish hfinal)
        · rw [Tallied, hstate] at htallied
          rw [Tallied, hafter, hbegun, hended]
          generalize session.beginnings other = begun at htallied
          generalize session.endings other = ended at htallied
          cases htallied with
          | executing =>
              simpa [closingWords, Observation.begins, Observation.ends] using Tally.ended hfinal
          | ended hfinal => cases hfinal
    | executes next frame => exact hextends.ages_of_not_told (Or.inl rfl) (by simp [closingWords])
    | waits gate frame =>
        refine hextends.ages_of_not_told (Or.inl ?_) (by simp [closingWords])
        obtain ⟨_, _, _, heq⟩ := exists_advance_waits session id other gate frame
        rw [heq]
        rfl
  · exact hextends.ages_of_ne hne

/-- In a move every call ages as it may. -/
theorem ages_of_move
    {session after : Session}
    (h : session.Sound)
    (hmove : Move session after)
    (id : CallId) :
    Ages session after id := by
  rcases move_cases h hmove with hturns | ⟨task, own, hactive, hstate, _, rfl⟩ |
    ⟨task, outcome, frame, rest, hactive, hstack, rfl⟩
  · exact hturns.ages id
  · have hengaged := engaged_opening h hactive hstate
    have hpiece := piece_opening h hactive hstate
    have hbody := hengaged.of_piece hpiece
    have hown := (h.standing task own hactive).1
    obtain ⟨told, htells, _⟩ := tells_begin hengaged.call
    exact ((ages_opening hown hstate id).trans (hpiece.ages htells id)).trans
      (ages_advance hbody.call hbody.executing task _ id)
  · have hengaged := engaged_reopening h hactive hstack
    have hpiece := piece_reopening h hactive hstack
    have hbody := hengaged.of_piece hpiece
    obtain ⟨told, htells, _⟩ := tells_resume hengaged.call outcome
    have hreopening : Ages session (session.reopening task rest) id :=
      (extends_reopening session task rest frame.call).ages_of_not_told (Or.inl rfl) (by simp)
    exact (hreopening.trans (hpiece.ages htells id)).trans
      (ages_advance hbody.call hbody.executing task _ id)

/-- In a run the state of every call goes on as it may. -/
theorem leads_of_run
    {session after : Session}
    (h : session.Reachable)
    (hrun : Run session after)
    (id : CallId) :
    CallState.Leads (session.call id).state (after.call id).state := by
  induction hrun with
  | refl => exact .refl
  | tail hearlier hlast ih =>
      exact ih.trans (ages_of_move (sound_of_reachable (h.of_run hearlier)) hlast id).leads

/-- The state of every call agrees with how often its body has begun and ended. -/
theorem tallied_of_reachable
    {session : Session}
    (h : session.Reachable)
    (id : CallId) :
    session.Tallied id := by
  have hboth : session.Sound ∧ session.Tallied id := by
    refine h.induct (motive := fun session => session.Sound ∧ session.Tallied id)
      (fun backend => ⟨sound_start backend, .new⟩) ?_
    rintro session after ⟨hsound, htallied⟩ hmove
    exact ⟨sound_of_move hsound hmove, (ages_of_move hsound hmove id).tallied htallied⟩
  exact hboth.2

/-- **The life of a call.**  Whatever tasks execute it, cancel it or clone it, and in whatever
order, its body begins at most once, its state goes on as it may and a final one stays.  Whoever
executes a call that is not new is refused, and nothing else comes of that. -/
theorem lifecycle
    {session after : Session}
    (h : session.Reachable)
    (hrun : Run session after)
    (id : CallId) :
    after.beginnings id ≤ 1 ∧ after.Tallied id ∧
      CallState.Leads (session.call id).state (after.call id).state ∧
      ((session.call id).state.isFinal = true → (after.call id).state = (session.call id).state) ∧
      ∀ task, after.active = some (task, .before id) → (after.call id).state ≠ .new →
        after.step = { after with
          active := some (task, .after (.error (.alreadyExecuted (after.call id).plan.kind))) } := by
  have htallied := tallied_of_reachable (h.of_run hrun) id
  have hleads := leads_of_run h hrun id
  refine ⟨htallied.begun_le_one, htallied, hleads, hleads.eq_of_isFinal, ?_⟩
  exact fun task hactive hstate => step_before_of_ne_new hactive hstate

/-- A session in which one task waits in the body of a call and another is about to execute it. -/
def doublyExecuted : Session :=
  ((((((start (.scripted [])).define "leaf" (.recording ⟨.null, none, some "gate", false⟩)).spawn
    "first" 0 .caller).spawn "second" 0 .caller).step).step).step

theorem run_doublyExecuted : Run (start (.scripted [])) doublyExecuted := by
  have hdefine := Relation.ReflTransGen.single
    (Move.define (start (.scripted [])) "leaf" (.recording ⟨.null, none, some "gate", false⟩) rfl)
  have hfirst := hdefine.tail (Move.spawn _ "first" 0 .caller rfl (by decide))
  have hsecond := hfirst.tail (Move.spawn _ "second" 0 .caller rfl (by decide))
  exact ((hsecond.tail (Move.step _)).tail (Move.step _)).tail (Move.step _)

/-- The second task is refused while the first goes on waiting. -/
theorem lifecycle_doublyExecuted :
    doublyExecuted.beginnings 0 ≤ 1 ∧ (doublyExecuted.call 0).state = .executing ∧
      doublyExecuted.step = { doublyExecuted with
        active := some (1, .after (.error (.alreadyExecuted .recording))) } := by
  have hlife := lifecycle ⟨_, .refl⟩ run_doublyExecuted 0
  exact ⟨hlife.1, rfl, hlife.2.2.2.2 1 rfl (by decide)⟩

end Session
end TraceArchive
