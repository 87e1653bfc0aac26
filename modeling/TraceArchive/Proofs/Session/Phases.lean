import TraceArchive.Proofs.Session.Alterations
import TraceArchive.Proofs.Session.History

/-!
# The phases of a trace search

A piece of the body of a trace search takes it from phase to phase, and ends in the last one, or
goes on to the search that belongs to the phase.  It leaves the phases of all others alone.

* `SearchPhase.Next`, `SearchPhase.Walk`: how phases follow each other, and what is logged of it.
* `Session.Walks`: a trace search has gone from phase to phase.
* `Session.changes_begin`, `changes_resume`: how a piece of a body changes the calls.
* `Session.paces_begin`, `paces_resume`: where a piece of the body of a trace search leads.
-/

set_option autoImplicit false

namespace TraceArchive

namespace SearchPhase

/-- The phase that a trace search may go to next. -/
inductive Next : SearchPhase → SearchPhase → Prop
  | list : Next .built .aggregating
  | fetch : Next .aggregating .fetching
  | skip : Next .aggregating .done
  | group : Next .fetching .grouping
  | finish : Next .grouping .done
  | fail {phase : SearchPhase}
      (hphase : phase = .aggregating ∨ phase = .fetching ∨ phase = .grouping) :
      Next phase .failed

/-- The line that is logged when a trace search goes to its next phase. -/
def line (phase next : SearchPhase) : String :=
  "Trace search " ++ phase.name ++ " -> " ++ next.name

/-- A trace search goes from one phase to another, and this is logged of it: a line for every step
but a failure. -/
inductive Walk : SearchPhase → SearchPhase → List String → Prop
  | stay (phase : SearchPhase) : Walk phase phase []
  | enter {phase next last : SearchPhase} {lines : List String}
      (hnext : Next phase next) (hlogged : next ≠ .failed) (hrest : Walk next last lines) :
      Walk phase last (line phase next :: lines)
  | fail {phase : SearchPhase} (hnext : Next phase .failed) : Walk phase .failed []

variable {phase middle last : SearchPhase} {lines lines' : List String}

/-- Nothing comes after a trace search is done or has failed. -/
theorem Walk.eq_of_over
    (h : Walk phase last lines)
    (hover : phase = .done ∨ phase = .failed) :
    last = phase ∧ lines = [] := by
  cases h with
  | stay => exact ⟨rfl, rfl⟩
  | enter hnext => rcases hover with rfl | rfl <;> cases hnext <;> simp at *
  | fail hnext => rcases hover with rfl | rfl <;> cases hnext <;> simp at *

theorem Walk.trans
    (h : Walk phase middle lines)
    (h' : Walk middle last lines') :
    Walk phase last (lines ++ lines') := by
  induction h with
  | stay phase => exact h'
  | enter hnext hlogged _ ih => exact .enter hnext hlogged (ih h')
  | fail hnext =>
      obtain ⟨rfl, rfl⟩ := h'.eq_of_over (Or.inr rfl)
      exact .fail hnext

end SearchPhase

/-- The line that was logged, if it is one. -/
def Observation.line? : Observation → Option String
  | .logged text => some text
  | _ => none

/-- The phase in which a trace search waits for what a frame of it goes on after. -/
def Frame.phase? : Frame → Option SearchPhase
  | .listing _ _ => some .aggregating
  | .fetching _ _ _ => some .fetching
  | _ => none

/-- What a piece of the body of a trace search does next agrees with its phase: it ends when it is
done or has failed, and executes the search that belongs to any other phase. -/
def Progress.Suits (phase : SearchPhase) : Progress → Prop
  | .ends (.ok _) => phase = .done
  | .ends (.error _) => phase = .failed
  | .executes _ frame => frame.phase? = some phase
  | .waits _ _ => False

namespace Session

/-- All lines that have been logged, the first one first. -/
def lines (session : Session) : List String :=
  (session.journal.filterMap Observation.line?).reverse

theorem lines_note_of_none
    {entry : Observation}
    (h : entry.line? = none)
    (session : Session) :
    (session.note entry).lines = session.lines := by
  simp [lines, note, h]

theorem lines_note_logged (session : Session) (text : String) :
    (session.note (.logged text)).lines = session.lines ++ [text] := by
  simp [lines, note, Observation.line?]

/-- A trace search has gone from one phase to another, and just that has been logged. -/
def Walks (own : CallId) (session after : Session) : Prop :=
  ∃ lines, SearchPhase.Walk (session.call own).phase (after.call own).phase lines ∧
    after.lines = session.lines ++ lines

section Walks

variable {own : CallId} {session middle after : Session}

theorem Walks.trans
    (h : Walks own session middle)
    (h' : Walks own middle after) :
    Walks own session after := by
  obtain ⟨lines, hwalk, hlines⟩ := h
  obtain ⟨lines', hwalk', hlines'⟩ := h'
  exact ⟨lines ++ lines', hwalk.trans hwalk', by rw [hlines', hlines, List.append_assoc]⟩

theorem walks_of_eq
    (hphase : (after.call own).phase = (session.call own).phase)
    (hlines : after.lines = session.lines) :
    Walks own session after :=
  ⟨[], hphase ▸ .stay _, by rw [hlines, List.append_nil]⟩

theorem phase_setPhase
    (hown : own < session.calls.size)
    (phase : SearchPhase) :
    ((session.updateCall own fun call => { call with phase := phase }).call own).phase = phase :=
  congrArg Call.phase ((Calls.get_modify hown _ own).trans (if_pos rfl))

theorem phase_entering
    (hown : own < session.calls.size)
    (phase : SearchPhase) :
    ((session.entering own phase).call own).phase = phase := by
  apply phase_setPhase
  exact hown

theorem walks_entering
    {phase : SearchPhase}
    (hown : own < session.calls.size)
    (hnext : SearchPhase.Next (session.call own).phase phase)
    (hlogged : phase ≠ .failed) :
    Walks own session (session.entering own phase) := by
  refine ⟨[SearchPhase.line (session.call own).phase phase], ?_, ?_⟩
  · rw [phase_entering hown]
    exact .enter hnext hlogged (.stay phase)
  · exact lines_note_logged session _

theorem walks_failPhase
    (hown : own < session.calls.size)
    (hnext : SearchPhase.Next (session.call own).phase .failed)
    (failure : Failure) :
    Walks own session (session.failPhase own failure).2 := by
  refine ⟨[], ?_, (List.append_nil _).symm⟩
  have hphase : ((session.failPhase own failure).2.call own).phase = .failed :=
    phase_setPhase hown .failed
  rw [hphase]
  exact .fail hnext

end Walks

/-! ### How the pieces of bodies change the calls -/

section Changes

variable {session : Session} {own : CallId}

theorem changes_cancelAll
    (own : CallId)
    (labels : List String)
    (session : Session) :
    session.calls.Changes own (cancelAll labels session).2.calls :=
  related_cancelAll (R := fun session after => session.calls.Changes own after.calls)
    (fun _ => .refl) (fun h h' => h.trans h') (fun _ id => Calls.Changes.refl.cancel id) labels
    session

theorem changes_entering
    (session : Session)
    (own : CallId)
    (phase : SearchPhase) :
    session.calls.Changes own (session.entering own phase).calls :=
  Calls.Changes.refl.setPhase phase

theorem changes_failPhase
    (session : Session)
    (own : CallId)
    (failure : Failure) :
    session.calls.Changes own (session.failPhase own failure).2.calls :=
  Calls.Changes.refl.setPhase .failed

theorem changes_issue
    {search : TraceSearch}
    (hown : own < session.calls.size)
    (hplan : (session.call own).plan = .traceSearch search)
    (asked : Search)
    (frame : Frame) :
    session.calls.Changes own (session.issue own asked frame).2.calls := by
  unfold issue
  dsimp only
  split
  · exact changes_failPhase session own _
  · have hadded := Calls.added_add session.calls (.search asked)
    refine (Calls.Changes.refl.add (.search asked)).setNext _ fun other hother => ?_
    rw [hadded.adds.old own hown] at hother
    exact absurd (hplan.symm.trans hother) nofun

theorem changes_enterPhase
    (session : Session)
    (own : CallId)
    (phase : SearchPhase) :
    session.calls.Changes own (session.enterPhase own phase).2.calls := by
  have halert := related_alert (R := fun session after => session.calls.Changes own after.calls)
    (fun _ => .refl) (fun h h' => h.trans h') (fun _ id => Calls.Changes.refl.cancel id)
    (fun _ h => h) phase
  unfold enterPhase
  dsimp only
  generalize hnote : session.note _ = noted
  have hcalls : noted.calls = session.calls := hnote ▸ rfl
  have halerted := halert noted.watches noted
  rw [hcalls] at halerted
  rcases hresult : alert phase noted.watches noted with ⟨_ | _, after⟩
  · rw [hresult] at halerted
    exact halerted
  · rw [hresult] at halerted
    exact halerted.setPhase phase

theorem changes_passPhase
    {phase : SearchPhase}
    {next : Session → Progress × Session}
    (hnext : ∀ entered, Marks session entered →
      entered.calls.Changes own (next entered).2.calls) :
    session.calls.Changes own (session.passPhase own phase next).2.calls := by
  have henters := changes_enterPhase session own phase
  cases hresult : (session.enterPhase own phase).1 with
  | error failure =>
      rw [passPhase_of_error hresult]
      exact henters.trans (changes_failPhase _ own failure)
  | ok =>
      rw [passPhase_of_ok hresult]
      exact henters.trans (hnext _ (marks_enterPhase session own phase))

theorem plan_entering
    (session : Session)
    (own : CallId)
    (phase : SearchPhase) :
    ((session.entering own phase).call own).plan = (session.call own).plan :=
  (marks_setPhase (session.note _) own phase).calls.plan own

theorem size_entering
    (session : Session)
    (own : CallId)
    (phase : SearchPhase) :
    (session.entering own phase).calls.size = session.calls.size :=
  Array.size_modify

/-- A trace search goes to another phase and issues a search from there. -/
theorem changes_passPhase_issue
    {search : TraceSearch}
    (hown : own < session.calls.size)
    (hplan : (session.call own).plan = .traceSearch search)
    (phase : SearchPhase)
    (asked : Search)
    (frame : Frame) :
    session.calls.Changes own
      (session.passPhase own phase fun session => session.issue own asked frame).2.calls :=
  changes_passPhase fun _ hmarks =>
    changes_issue (hmarks.calls.size ▸ hown) ((hmarks.calls.plan own).trans hplan) asked frame

theorem changes_begin
    (hown : own < session.calls.size) :
    session.calls.Changes own (session.begin own).2.calls := by
  unfold begin
  dsimp only
  cases hplan : (session.call own).plan with
  | recording leaf =>
      have hcounted : session.calls.Changes own
          (session.updateCall own fun call => { call with runs := call.runs + 1 }).calls :=
        Calls.Changes.refl.minor own _ (Call.isMinor_count)
      exact hcounted
  | traceSearch search => exact changes_passPhase_issue hown hplan .aggregating _ _
  | constant value => exact .refl
  | mapped first mapper => exact .refl
  | flatMapped first mapper => exact .refl
  | search search => exact .refl

theorem changes_stageCall
    {stage : Stage Plan}
    {chosen : CallId × Session}
    (hformed : session.Formed)
    (hstage : session.stageCall stage = .ok chosen)
    (own : CallId) :
    session.calls.Changes own chosen.2.calls := by
  rcases stageCall_cases hformed hstage with ⟨_, _, _, _, rfl⟩ | ⟨plan, _, hcalls, _⟩
  · exact .refl
  · rw [hcalls]
    exact Calls.Changes.refl.add plan

theorem changes_applyMapper
    (session : Session)
    (own : CallId)
    (mapper : Value → Mapping Value)
    (value : Value) :
    session.calls.Changes own (session.applyMapper own mapper value).2.calls := by
  have hcancels := changes_cancelAll own (mapper value).cancels (session.note (.applied own))
  unfold applyMapper
  dsimp only
  rcases hresult : cancelAll (mapper value).cancels (session.note (.applied own)) with
    ⟨_ | _, after⟩
  · rw [hresult] at hcancels
    exact hcancels
  · rw [hresult] at hcancels
    exact hcancels

theorem changes_applyFlatMapper
    {first : Plan}
    {mapper : Value → Mapping (Stage Plan)}
    (hformed : session.Formed)
    (hown : own < session.calls.size)
    (hplan : (session.call own).plan = .flatMapped first mapper)
    (value : Value) :
    session.calls.Changes own (session.applyFlatMapper own mapper value).2.calls := by
  have hcancels := changes_cancelAll own (mapper value).cancels (session.note (.applied own))
  have hmarks := marks_cancelAll (mapper value).cancels (session.note (.applied own))
  have hnoted : (session.note (.applied own)).Formed := ⟨hformed.staged, hformed.labels⟩
  unfold applyFlatMapper
  split
  · exact .refl
  · dsimp only
    rcases hresult : cancelAll (mapper value).cancels (session.note (.applied own)) with
      ⟨_ | _, marked⟩
    · rw [hresult] at hcancels
      exact hcancels
    · rw [hresult] at hcancels hmarks
      dsimp only
      cases hchosen : (mapper value).result.bind marked.stageCall with
      | error failure => exact hcancels
      | ok chosen =>
          obtain ⟨stage, _, hstage⟩ := exists_stageCall_of_bind hchosen
          have hmarked := hnoted.of_marks hmarks
          have hadds := (stageCall_eq_ok hmarked hstage).1
          refine (hcancels.trans (changes_stageCall hmarked hstage own)).setNext _
            fun asked hasked => ?_
          rw [hadds.old own (hmarks.calls.size ▸ hown), hmarks.calls.plan] at hasked
          exact absurd (hplan.symm.trans hasked) nofun

theorem changes_fetchListed
    {search : TraceSearch}
    (hown : own < session.calls.size)
    (hplan : (session.call own).plan = .traceSearch search)
    (ids : List String) :
    session.calls.Changes own (session.fetchListed own search ids).2.calls := by
  unfold fetchListed
  split
  · exact changes_passPhase fun _ _ => .refl
  · exact changes_passPhase_issue hown hplan .fetching _ _

theorem changes_assembleFetched
    (session : Session)
    (own : CallId)
    (search : TraceSearch)
    (ids : List String)
    (spans : List Span) :
    session.calls.Changes own (session.assembleFetched own search ids spans).2.calls := by
  unfold assembleFetched
  refine changes_passPhase fun entered _ => ?_
  cases Trace.assemble search.criteria search.strict ids spans with
  | error error => exact changes_failPhase _ own _
  | ok traces =>
      have hfinished := changes_enterPhase entered own .done
      dsimp only
      rcases hresult : entered.enterPhase own .done with ⟨_ | _, after⟩
      · rw [hresult] at hfinished
        exact hfinished
      · rw [hresult] at hfinished
        exact hfinished

theorem changes_resume
    {frame : Frame}
    (hformed : session.Formed)
    (hown : frame.call < session.calls.size)
    (hfits : frame.Fits (session.call frame.call).plan)
    (outcome : Outcome) :
    session.calls.Changes frame.call (session.resume frame outcome).2.calls := by
  cases outcome with
  | error failure =>
      cases frame with
      | listing own search => exact changes_failPhase session own failure
      | fetching own search ids => exact changes_failPhase session own failure
      | _ => exact .refl
  | ok value =>
      cases frame with
      | leaf own recording =>
          rw [resume]
          cases recording.failure <;> exact .refl
      | reply own search reply => exact .refl
      | next own => exact .refl
      | mapped own mapper => exact changes_applyMapper session own mapper value
      | first own mapper =>
          obtain ⟨first, hplan⟩ := hfits
          exact changes_applyFlatMapper hformed hown hplan value
      | listing own search =>
          exact changes_fetchListed hown hfits value.texts
      | fetching own search ids => exact changes_assembleFetched session own search ids value.spans

theorem changes_advance
    (session : Session)
    (task : TaskId)
    (own : CallId)
    (progress : Progress)
    (other : CallId) :
    session.calls.Changes other (session.advance task own progress).calls := by
  cases progress with
  | ends outcome =>
      rw [advance_ends]
      exact Calls.Changes.refl.setState own _
  | executes next frame => exact .refl
  | waits gate frame =>
      obtain ⟨_, _, _, heq⟩ := exists_advance_waits session task own gate frame
      rw [heq]
      exact .refl

end Changes

/-! ### Where the pieces of a trace search lead -/

/-- A piece of the body of a trace search has gone from phase to phase, and goes on as it suits the
last one; whatever the trace search has issued last is tied to it. -/
structure Paces (own : CallId) (session : Session) (result : Progress × Session) : Prop where
  walks : Walks own session result.2
  suits : result.1.Suits (result.2.call own).phase
  ties : session.calls.TiesNext own → result.2.calls.TiesNext own

section Paces

variable {session : Session} {own : CallId} {search : TraceSearch}

theorem tiesNext_setPhase
    (h : session.calls.TiesNext own)
    (phase : SearchPhase) :
    (session.updateCall own fun call => { call with phase := phase }).calls.TiesNext own := by
  apply Calls.TiesNext.modify h <;> exact fun _ => rfl

theorem paces_failPhase
    (hown : own < session.calls.size)
    (hnext : SearchPhase.Next (session.call own).phase .failed)
    (failure : Failure) :
    Paces own session (session.failPhase own failure) :=
  ⟨walks_failPhase hown hnext failure, phase_setPhase hown .failed,
    fun hties => tiesNext_setPhase hties .failed⟩

/-- A trace search has gone to its next phase, and on from there. -/
theorem paces_of_entering
    {phase : SearchPhase}
    {result : Progress × Session}
    (hown : own < session.calls.size)
    (hnext : SearchPhase.Next (session.call own).phase phase)
    (hlogged : phase ≠ .failed)
    (h : Paces own (session.entering own phase) result) :
    Paces own session result :=
  ⟨(walks_entering hown hnext hlogged).trans h.walks, h.suits,
    fun hties => h.ties (tiesNext_setPhase hties phase)⟩

theorem paces_ends_done
    (hown : own < session.calls.size)
    (hnext : SearchPhase.Next (session.call own).phase .done)
    (value : Value) :
    Paces own session (.ends (.ok value), session.entering own .done) :=
  ⟨walks_entering hown hnext nofun, phase_entering hown .done,
    fun hties => tiesNext_setPhase hties .done⟩

theorem issue_of_not_canceled
    (hflag : (session.call own).canceled = false)
    (asked : Search)
    (frame : Frame) :
    session.issue own asked frame =
      (.executes session.calls.size frame,
        ({ session with calls := (session.calls.push (.search asked) none).1 }.note
          (.issued own session.calls.size)).updateCall own fun call =>
            { call with next := some session.calls.size }) :=
  if_neg (by simp [hflag])

/-- A trace search issues the search that belongs to its phase, or fails. -/
theorem paces_issue
    {frame : Frame}
    (hown : own < session.calls.size)
    (hplan : (session.call own).plan = .traceSearch search)
    (hfirst : session.calls.FirstOfComposed)
    (hnext : SearchPhase.Next (session.call own).phase .failed)
    (hframe : frame.phase? = some (session.call own).phase)
    (asked : Search) :
    Paces own session (session.issue own asked frame) := by
  cases hflag : (session.call own).canceled with
  | true =>
      rw [issue_of_canceled hflag]
      exact paces_failPhase hown hnext _
  | false =>
      have hnone : (session.call own).first = none := by
        by_contra hsome
        have hcomposed := hfirst own hsome
        rw [← call, hplan] at hcomposed
        exact hcomposed
      have hheeds : (session.call own).plan.ignoresCancel = false := hplan ▸ rfl
      rw [issue_of_not_canceled hflag]
      have hphase : Call.phase (Calls.get ((session.calls.push (.search asked) none).1.modify own
          fun call => { call with next := some session.calls.size }) own) =
            (session.call own).phase :=
        (Calls.field_modify Call.phase (fun call => { call with next := some session.calls.size })
          (fun _ => rfl) _ own own).trans
          (Calls.field_push Call.phase (fun _ _ => rfl) session.calls _ _ own)
      refine ⟨walks_of_eq hphase ?_, hframe.trans (congrArg some hphase.symm),
        fun _ => Calls.tiesNext_push hown hheeds hnone hflag⟩
      exact lines_note_of_none rfl _

/-- A trace search goes to another phase and issues the search that belongs to it. -/
theorem paces_passPhase_issue
    {frame : Frame}
    {phase : SearchPhase}
    (hunwatched : session.watches = [])
    (hown : own < session.calls.size)
    (hplan : (session.call own).plan = .traceSearch search)
    (hfirst : session.calls.FirstOfComposed)
    (hnext : SearchPhase.Next (session.call own).phase phase)
    (hframe : frame.phase? = some phase)
    (hphase : phase = .aggregating ∨ phase = .fetching)
    (asked : Search) :
    Paces own session
      (session.passPhase own phase fun session => session.issue own asked frame) := by
  have hentered := phase_entering hown phase
  have hplan' := (plan_entering session own phase).trans hplan
  have hlogged : phase ≠ .failed := by
    rintro rfl
    simp at hphase
  rw [passPhase_of_nil hunwatched]
  refine paces_of_entering hown hnext hlogged (paces_issue ?_ hplan' ?_ ?_ ?_ asked)
  · exact (size_entering session own phase).symm ▸ hown
  · exact (changes_entering session own phase).firstOfComposed hfirst
  · rw [hentered]
    exact .fail (hphase.imp_right Or.inl)
  · rw [hentered]
    exact hframe

/-- The first piece of the body of a trace search. -/
theorem paces_begin
    (hunwatched : session.watches = [])
    (hown : own < session.calls.size)
    (hplan : (session.call own).plan = .traceSearch search)
    (hfirst : session.calls.FirstOfComposed)
    (hphase : (session.call own).phase = .built) :
    Paces own session (session.begin own) := by
  unfold begin
  dsimp only
  rw [hplan]
  exact paces_passPhase_issue hunwatched hown hplan hfirst (hphase ▸ .list) rfl (Or.inl rfl) _

theorem paces_fetchListed
    (hunwatched : session.watches = [])
    (hown : own < session.calls.size)
    (hplan : (session.call own).plan = .traceSearch search)
    (hfirst : session.calls.FirstOfComposed)
    (hphase : (session.call own).phase = .aggregating)
    (ids : List String) :
    Paces own session (session.fetchListed own search ids) := by
  unfold fetchListed
  split
  · rw [passPhase_of_nil hunwatched]
    exact paces_ends_done hown (hphase ▸ .skip) _
  · exact paces_passPhase_issue hunwatched hown hplan hfirst (hphase ▸ .fetch) rfl (Or.inr rfl) _

theorem paces_assembleFetched
    (hunwatched : session.watches = [])
    (hown : own < session.calls.size)
    (hphase : (session.call own).phase = .fetching)
    (search : TraceSearch)
    (ids : List String)
    (spans : List Span) :
    Paces own session (session.assembleFetched own search ids spans) := by
  have hentered := phase_entering hown .grouping
  have hsize : own < (session.entering own .grouping).calls.size :=
    (size_entering session own .grouping).symm ▸ hown
  have hnil : (session.entering own .grouping).watches = [] := hunwatched
  have hgroup : SearchPhase.Next (session.call own).phase .grouping := hphase ▸ .group
  unfold assembleFetched
  rw [passPhase_of_nil hunwatched]
  refine paces_of_entering hown hgroup nofun ?_
  cases Trace.assemble search.criteria search.strict ids spans with
  | error error =>
      apply paces_failPhase hsize
      rw [hentered]
      exact .fail (Or.inr (Or.inr rfl))
  | ok traces =>
      dsimp only
      rw [enterPhase_of_nil hnil]
      apply paces_ends_done hsize
      rw [hentered]
      exact .finish

/-- A later piece of the body of a trace search. -/
theorem paces_resume
    {frame : Frame}
    (hunwatched : session.watches = [])
    (hown : frame.call < session.calls.size)
    (hplan : (session.call frame.call).plan = .traceSearch search)
    (hfits : frame.Fits (session.call frame.call).plan)
    (hfirst : session.calls.FirstOfComposed)
    (hphase : frame.phase? = some (session.call frame.call).phase)
    (outcome : Outcome) :
    Paces frame.call session (session.resume frame outcome) := by
  rw [hplan] at hfits
  rcases hfits.of_traceSearch with ⟨own, rfl⟩ | ⟨own, ids, rfl⟩
  · have haggregating := (Option.some.inj hphase).symm
    cases outcome with
    | error failure => exact paces_failPhase hown (haggregating ▸ .fail (Or.inl rfl)) failure
    | ok value => exact paces_fetchListed hunwatched hown hplan hfirst haggregating value.texts
  · have hfetching := (Option.some.inj hphase).symm
    cases outcome with
    | error failure =>
        exact paces_failPhase hown (hfetching ▸ .fail (Or.inr (Or.inl rfl))) failure
    | ok value => exact paces_assembleFetched hunwatched hown hfetching search ids value.spans

end Paces

end Session
end TraceArchive
