import TraceArchive.Proofs.Session.History

/-!
# What moves add to the history

* `Extends`: a move adds to the history of one call, and leaves all other calls as they are, but
  that it may refuse new ones.
* `IsQuiet`: what may be told of searching when no search reaches the backend.
* `extends_of_move`: every move is such a move.
-/

set_option autoImplicit false

namespace TraceArchive
namespace Session

/-- A move adds to the history of one call, and may set the state and the next stage of that call;
it refuses other calls at most, if they are new. -/
structure Extends (own : CallId) (told : List Observation) (session after : Session) : Prop where
  size : session.calls.size ≤ after.calls.size
  plan : ∀ id < session.calls.size, (after.call id).plan = (session.call id).plan
  next : ∀ id < session.calls.size, id ≠ own → (after.call id).next = (session.call id).next
  state : ∀ id, id ≠ own → (after.call id).state = (session.call id).state ∨
    (session.call id).state = .new ∧ (after.call id).state = .canceled
  history : after.history = told ++ session.history
  subject : ∀ entry ∈ told, entry.subject = some own
  searches : after.searches = told.countP Observation.isSearched + session.searches
  backend : after.backend = session.backend

theorem Extends.trans
    {own : CallId}
    {told told' : List Observation}
    {session middle after : Session}
    (h : Extends own told session middle)
    (h' : Extends own told' middle after) :
    Extends own (told' ++ told) session after := by
  have hlt : ∀ id < session.calls.size, id < middle.calls.size :=
    fun id hid => Nat.lt_of_lt_of_le hid h.size
  refine ⟨Nat.le_trans h.size h'.size, ?_, ?_, ?_, ?_, ?_, ?_, h'.backend.trans h.backend⟩
  · exact fun id hid => (h'.plan id (hlt id hid)).trans (h.plan id hid)
  · exact fun id hid hne => (h'.next id (hlt id hid) hne).trans (h.next id hid hne)
  · intro id hne
    rcases h.state id hne with hsame | ⟨hnew, hcanceled⟩
    · rw [← hsame]
      exact h'.state id hne
    · rcases h'.state id hne with hsame | ⟨hnew', _⟩
      · exact Or.inr ⟨hnew, hsame.trans hcanceled⟩
      · exact absurd (hcanceled.symm.trans hnew') (by decide)
  · rw [h'.history, h.history, List.append_assoc]
  · intro entry hentry
    rcases List.mem_append.mp hentry with hlater | hearlier
    · exact h'.subject entry hlater
    · exact h.subject entry hearlier
  · rw [h'.searches, h.searches, List.countP_append, Nat.add_assoc]

theorem state_of_isFresh
    {calls : Calls}
    {id : CallId}
    (h : calls.IsFresh id) :
    (calls.get id).state = .new := by
  obtain ⟨plan, first, hget, _⟩ := h
  rw [hget]
  rfl

/-- Every call that does not exist is new. -/
theorem state_of_size_le
    {calls : Calls}
    {id : CallId}
    (h : calls.size ≤ id) :
    (calls.get id).state = .new := by
  rw [Calls.get_eq_default h]
  rfl

theorem lt_size_of_plan_ne
    {calls : Calls}
    {id : CallId}
    (h : (calls.get id).plan ≠ (default : Call).plan) :
    id < calls.size := by
  by_cases hid : id < calls.size
  · exact hid
  · exact absurd (congrArg Call.plan (Calls.get_eq_default (Nat.not_lt.mp hid))) h

theorem search_ne_default (asked : Search) : Plan.search asked ≠ (default : Call).plan := by
  intro h
  cases h

theorem traceSearch_ne_default (search : TraceSearch) :
    Plan.traceSearch search ≠ (default : Call).plan := by
  intro h
  cases h

/-- A move that runs no body refuses new calls at most. -/
theorem Rests.state_eq_or
    {session after : Session}
    (h : Rests session after)
    (id : CallId) :
    (after.call id).state = (session.call id).state ∨
      (session.call id).state = .new ∧ (after.call id).state = .canceled := by
  by_cases hold : id < session.calls.size
  · exact h.state id hold
  · have hle := Nat.not_lt.mp hold
    have hbefore : (session.call id).state = .new := state_of_size_le hle
    left
    rw [hbefore]
    by_cases hnew : id < after.calls.size
    · exact state_of_isFresh (h.fresh id hnew hle)
    · exact state_of_size_le (Nat.not_lt.mp hnew)

theorem Rests.history
    {session after : Session}
    (h : Rests session after) :
    after.history = session.history := by
  obtain ⟨remarks, hjournal, hremarks⟩ := h.journal
  have hnone : remarks.filter (fun entry => entry.subject.isSome) = [] := by
    refine List.filter_eq_nil_iff.mpr fun entry hentry => ?_
    have hremark := hremarks entry hentry
    cases entry <;> simp_all [Observation.isRemark, Observation.subject]
  rw [Session.history, hjournal, List.filter_append, hnone, List.nil_append, Session.history]

theorem Turns.extends
    {session after : Session}
    (h : Turns session after)
    (own : CallId) :
    Extends own [] session after := by
  refine ⟨h.flags.size, h.flags.plan, ?_, ?_, h.rests.history, by simp,
    h.rests.searches.trans (Nat.zero_add _).symm, h.rests.backend⟩
  · exact fun id hid _ => h.rests.next id hid
  · exact fun id _ => h.rests.state_eq_or id

/-- A piece of a body leaves the states of all calls as they are. -/
theorem Piece.state
    {own : CallId}
    {session : Session}
    {result : Progress × Session}
    (h : Piece own session result)
    (id : CallId) :
    (result.2.call id).state = (session.call id).state := by
  by_cases hold : id < session.calls.size
  · exact h.grows.state id hold
  · have hle := Nat.not_lt.mp hold
    have hbefore : (session.call id).state = .new := state_of_size_le hle
    rw [hbefore]
    by_cases hnew : id < result.2.calls.size
    · exact state_of_isFresh (h.grows.fresh id hnew hle)
    · exact state_of_size_le (Nat.not_lt.mp hnew)

theorem Piece.extends
    {own : CallId}
    {told : List Observation}
    {session : Session}
    {result : Progress × Session}
    (h : Piece own session result)
    (htells : Tells own told session result.2) :
    Extends own told session result.2 :=
  ⟨h.grows.size, h.grows.plan, h.grows.next, fun id _ => Or.inl (h.state id), htells.history,
    htells.subject, htells.searches, h.keeps.backend⟩

theorem extends_setState
    (session : Session)
    (own : CallId)
    (state : CallState) :
    Extends own [] session (session.updateCall own fun call => { call with state := state }) := by
  have hspares := Calls.spares_setState session.calls own state
  refine ⟨hspares.size, hspares.plan, hspares.next, ?_, rfl, by simp, (Nat.zero_add _).symm, rfl⟩
  exact fun id hne => Or.inl (congrArg Call.state (Calls.get_modify_of_ne hne _))

theorem extends_note
    {entry : Observation}
    {own : CallId}
    (h : entry.subject = some own)
    (hsearched : entry.isSearched = false)
    (session : Session) :
    Extends own [entry] session (session.note entry) :=
  ⟨Nat.le_refl _, fun _ _ => rfl, fun _ _ _ => rfl, fun _ _ => Or.inl rfl,
    history_note_of_subject h session, by simpa using h, by simp [hsearched, note], rfl⟩

/-- The calls, the backend and the journal are as they were. -/
theorem extends_of_calls_eq
    {session after : Session}
    (hcalls : after.calls = session.calls)
    (hjournal : after.journal = session.journal)
    (hsearches : after.searches = session.searches)
    (hbackend : after.backend = session.backend)
    (own : CallId) :
    Extends own [] session after := by
  have hcall : ∀ id, after.call id = session.call id := fun id => by rw [call, call, hcalls]
  refine ⟨hcalls ▸ Nat.le_refl _, fun id _ => by rw [hcall], fun id _ _ => by rw [hcall],
    fun id _ => Or.inl (by rw [hcall]), history_congr hjournal, by simp,
    hsearches.trans (Nat.zero_add _).symm, hbackend⟩

theorem extends_opening (session : Session) (own : CallId) :
    Extends own [.began own] session (session.opening own) := by
  have hidle : Extends own [] session { session with active := none } := by
    apply extends_of_calls_eq <;> rfl
  have hbegan : (Observation.began own).subject = some own := rfl
  exact (hidle.trans (extends_setState _ own .executing)).trans (extends_note hbegan rfl _)

theorem extends_reopening
    (session : Session)
    (id : TaskId)
    (rest : List Frame)
    (own : CallId) :
    Extends own [] session (session.reopening id rest) := by
  apply extends_of_calls_eq <;> rfl

/-- What the end of a piece of a body adds to the history: that the body has ended, if it has. -/
def closingWords (session : Session) (own : CallId) : Progress → List Observation
  | .ends outcome => [.concluded own (conclusion (session.call own) outcome).2]
  | _ => []

theorem extends_advance
    (session : Session)
    (id : TaskId)
    (own : CallId)
    (progress : Progress) :
    Extends own (session.closingWords own progress) session (session.advance id own progress) := by
  cases progress with
  | ends outcome =>
      have hconcluded : (Observation.concluded own
          (conclusion (session.call own) outcome).2).subject = some own := rfl
      have hclosing := (extends_note hconcluded rfl session).trans
        (extends_setState _ own (conclusion (session.call own) outcome).1)
      have hgoOn : Extends own [] (session.closing own outcome)
          (session.advance id own (.ends outcome)) := by
        apply extends_of_calls_eq <;> rfl
      exact hclosing.trans hgoOn
  | executes next frame =>
      rw [advance_executes]
      apply extends_of_calls_eq <;> rfl
  | waits gate frame =>
      obtain ⟨_, _, _, heq⟩ := exists_advance_waits session id own gate frame
      rw [heq]
      apply extends_of_calls_eq <;> rfl

theorem size_opening (session : Session) (own : CallId) :
    (session.opening own).calls.size = session.calls.size :=
  Array.size_modify

/-- Nothing was told of searching, but that a search was issued as a new call. -/
def IsQuiet (session : Session) (told : List Observation) : Prop :=
  ∀ entry ∈ told, entry.isSearched = false ∧
    ∀ call stage, entry = .issued call stage → session.calls.size ≤ stage

theorem IsQuiet.append
    {session : Session}
    {told told' : List Observation}
    (h : session.IsQuiet told)
    (h' : session.IsQuiet told') :
    session.IsQuiet (told' ++ told) :=
  List.forall_mem_append.mpr ⟨h', h⟩

theorem isQuiet_closingWords
    (session middle : Session)
    (own : CallId)
    (progress : Progress) :
    session.IsQuiet (middle.closingWords own progress) := by
  cases progress with
  | ends outcome => simp [closingWords, IsQuiet, Observation.isSearched]
  | executes next frame => simp [closingWords, IsQuiet]
  | waits gate frame => simp [closingWords, IsQuiet]

theorem IsNews.isQuiet
    {session middle : Session}
    {own : CallId}
    {told : List Observation}
    (h : middle.IsNews own told)
    (hsize : middle.calls.size = session.calls.size) :
    session.IsQuiet told := by
  rcases h with rfl | rfl
  · simp [IsQuiet]
  · simp [IsQuiet, Observation.isSearched, hsize]

/-- The body of a search begins and reaches the backend. -/
theorem extends_begin_of_plan_search
    {session : Session}
    {id : TaskId}
    {own : CallId}
    {asked : Search}
    (h : session.Sound)
    (hactive : session.active = some (id, .before own))
    (hstate : (session.call own).state = .new)
    (hplan : (session.call own).plan = .search asked) :
    Extends own [.searched own asked, .began own] session
      (((session.opening own).begin own).2.advance id own ((session.opening own).begin own).1) := by
  have hopening := extends_opening session own
  have hbody : ((session.opening own).call own).plan = .search asked :=
    (hopening.plan own (h.standing id own hactive).1).trans hplan
  have hpiece := (piece_opening h hactive hstate).extends (tells_begin_of_plan_search hbody)
  have hadvance := extends_advance ((session.opening own).begin own).2 id own
    ((session.opening own).begin own).1
  have hwords : ((session.opening own).begin own).2.closingWords own
      ((session.opening own).begin own).1 = [] := by
    rw [begin_of_plan_search hbody]
    rfl
  rw [hwords] at hadvance
  exact (hopening.trans hpiece).trans hadvance

/-- Every move adds to the history of one call only: it tells quietly of it, or that the search of
a new call has reached the backend. -/
theorem extends_of_move
    {session after : Session}
    (h : session.Sound)
    (hmove : Move session after) :
    ∃ own told, Extends own told session after ∧
      (session.IsQuiet told ∨ ∃ asked, told = [.searched own asked, .began own] ∧
        (session.call own).state = .new ∧ (session.call own).plan = .search asked) := by
  rcases move_cases h hmove with hturns | ⟨id, own, hactive, hstate, _, rfl⟩ |
    ⟨id, outcome, frame, rest, hactive, hstack, rfl⟩
  · exact ⟨0, [], hturns.extends 0, Or.inl (List.forall_mem_nil _)⟩
  · have hplan := (extends_opening session own).plan own (h.standing id own hactive).1
    obtain ⟨told, htells, hnews | ⟨asked, hsearch, _⟩⟩ :=
      tells_begin (engaged_opening h hactive hstate).call
    · have hpiece := (piece_opening h hactive hstate).extends htells
      refine ⟨own, _, ((extends_opening session own).trans hpiece).trans
        (extends_advance _ id own _), Or.inl ?_⟩
      have hbegan : session.IsQuiet [.began own] := by simp [IsQuiet, Observation.isSearched]
      exact (hbegan.append (hnews.isQuiet (size_opening session own))).append
        (isQuiet_closingWords session _ own _)
    · have hasked := hplan.symm.trans hsearch
      exact ⟨own, _, extends_begin_of_plan_search h hactive hstate hasked,
        Or.inr ⟨asked, rfl, hstate, hasked⟩⟩
  · obtain ⟨told, htells, hnews⟩ := tells_resume (engaged_reopening h hactive hstack).call outcome
    have hpiece := (piece_reopening h hactive hstack).extends htells
    refine ⟨frame.call, _, ((extends_reopening session id rest frame.call).trans hpiece).trans
      (extends_advance _ id frame.call _), Or.inl ?_⟩
    have hquiet : session.IsQuiet told := hnews.isQuiet rfl
    rw [List.append_nil]
    exact hquiet.append (isQuiet_closingWords session _ frame.call _)

end Session
end TraceArchive
