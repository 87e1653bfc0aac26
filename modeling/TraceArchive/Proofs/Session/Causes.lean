import TraceArchive.Proofs.Session.Turns

/-!
# What raises the flag of a call

The flag of a call goes up only when some call is told to cancel that passes this on to it, or when
it is told itself.  A call is told from outside, by a mapper, or by someone who watches a trace
search.

* `Calls.Raises`: the flags that are up after some calls were told to cancel.
* `Session.targets`, `raises_cancelAll`: the calls that a mapper tells.
* `Session.Alerts`: those who watched and watch no longer have told their calls, and nobody else has
  told any.
* `Session.IsTold`, `Session.Cancels`: a move in which a call is told to cancel, and one in which
  this reaches a call.
* `canceled_of_move_iff`: a move raises the flags of the calls that are canceled in it, and no
  others.
-/

set_option autoImplicit false

namespace TraceArchive

namespace Calls

/-! ### Flags -/

/-- The flags that are up are those that were up before, and those of the calls that are reached
from a call that was told to cancel. -/
def Raises (told : CallId → Prop) (calls calls' : Calls) : Prop :=
  ∀ id < calls.size, (calls'.get id).canceled = true ↔
    (calls.get id).canceled = true ∨
      (calls.get id).plan.ignoresCancel = false ∧
        ∃ root, told root ∧ id ∈ (calls.descent root).reached

variable {told told' : CallId → Prop} {calls calls' calls'' : Calls}

/-- Where no call is told to cancel, all flags stay. -/
theorem raises_of_flags
    (hnone : ∀ root, ¬ told root)
    (hflags : ∀ id < calls.size, (calls'.get id).canceled = (calls.get id).canceled) :
    Raises told calls calls' := by
  intro id hid
  rw [hflags id hid]
  refine ⟨Or.inl, fun h => h.resolve_right ?_⟩
  rintro ⟨_, root, htold, _⟩
  exact hnone root htold

theorem Raises.of_flags
    (h : Raises told calls calls')
    (hflags : ∀ id < calls.size, (calls''.get id).canceled = (calls'.get id).canceled) :
    Raises told calls calls'' := by
  intro id hid
  rw [hflags id hid]
  exact h id hid

theorem Raises.congr
    (h : Raises told calls calls')
    (htold : ∀ root, told' root ↔ told root) :
    Raises told' calls calls' := by
  intro id hid
  simp only [htold]
  exact h id hid

theorem Raises.trans
    (h : Raises told calls calls')
    (hresembles : Resembles calls calls')
    (h' : Raises told' calls' calls'') :
    Raises (fun root => told root ∨ told' root) calls calls'' := by
  intro id hid
  rw [h' id (hresembles.size ▸ hid), h id hid, hresembles.plan]
  simp only [hresembles.descent, or_and_right, exists_or, and_or_left, or_assoc]

/-- To cancel a call tells that call only. -/
theorem raises_cancel (calls : Calls) (root : CallId) :
    Raises (fun other => other = root) calls (calls.cancel root) := by
  intro id hid
  rw [get_cancel hid]
  split
  · rename_i hreached
    simp [hreached]
  · rename_i hreached
    simp [hreached]

end Calls

namespace Session

theorem cancel_of_ends
    {session : Session}
    {id : CallId}
    (hends : session.calls.cancelEnds id = true) :
    session.cancel id = (.ok (), (session.cancel id).2) :=
  Prod.ext (if_pos hends) rfl

theorem cancel_of_not_ends
    {session : Session}
    {id : CallId}
    (hends : session.calls.cancelEnds id = false) :
    session.cancel id = (.error .endless, (session.cancel id).2) :=
  Prod.ext (if_neg (by simp [hends])) rfl

/-! ### The calls that a mapper tells -/

/-- Labelled calls that are told to cancel in turn: up to a label that is not known, or to a call
whose canceling does not end. -/
def targets (session : Session) : List String → List CallId
  | [] => []
  | label :: rest =>
      match session.find label with
      | .error _ => []
      | .ok id => id :: if session.calls.cancelEnds id then session.targets rest else []

theorem targets_congr
    {session after : Session}
    (hlabels : after.labels = session.labels)
    (hresembles : session.calls.Resembles after.calls)
    (labels : List String) :
    after.targets labels = session.targets labels := by
  have hfind : ∀ label, after.find label = session.find label := fun label => by
    rw [find, find, hlabels]
  have hends : ∀ id, after.calls.cancelEnds id = session.calls.cancelEnds id := fun id => by
    rw [Calls.cancelEnds, Calls.cancelEnds, hresembles.descent]
  induction labels with
  | nil => rfl
  | cons label rest ih => simp only [targets, hfind, hends, ih]

theorem raises_cancelAll
    (labels : List String)
    (session : Session) :
    session.calls.Raises (fun root => root ∈ session.targets labels)
      (cancelAll labels session).2.calls := by
  induction labels generalizing session with
  | nil => exact Calls.raises_of_flags (fun _ => List.not_mem_nil) fun _ _ => rfl
  | cons label rest ih =>
      rw [cancelAll, targets]
      cases session.find label with
      | error failure => exact Calls.raises_of_flags (fun _ => List.not_mem_nil) fun _ _ => rfl
      | ok id =>
          have hone := Calls.raises_cancel session.calls id
          have hmarks := marks_cancel session id
          cases hends : session.calls.cancelEnds id with
          | true =>
              dsimp only
              rw [cancel_of_ends hends, if_pos hends]
              refine (hone.trans hmarks.calls.resembles (ih (session.cancel id).2)).congr ?_
              simp [targets_congr hmarks.keeps.labels hmarks.calls.resembles]
          | false =>
              dsimp only
              rw [cancel_of_not_ends hends, if_neg (by simp [hends])]
              exact hone.congr (by simp)

/-! ### The calls that those who watch tell -/

/-- Someone who watched for a call watches no longer. -/
def Loses (watches watches' : List (SearchPhase × CallId)) (root : CallId) : Prop :=
  ∃ phase, watches'.count (phase, root) < watches.count (phase, root)

/-- Nobody has come to watch, and the calls that were told to cancel are those for whom someone
watches no longer. -/
structure Alerts (session after : Session) : Prop where
  fewer : ∀ watch, after.watches.count watch ≤ session.watches.count watch
  raises : session.calls.Raises (Loses session.watches after.watches) after.calls

theorem not_loses_self
    (watches : List (SearchPhase × CallId))
    (root : CallId) :
    ¬ Loses watches watches root :=
  fun ⟨_, hfewer⟩ => absurd hfewer (Nat.lt_irrefl _)

theorem Alerts.refl (session : Session) : Alerts session session :=
  ⟨fun _ => Nat.le_refl _,
    Calls.raises_of_flags (not_loses_self session.watches) fun _ _ => rfl⟩

theorem Alerts.of_flags
    {session middle after : Session}
    (h : Alerts session middle)
    (hwatches : after.watches = middle.watches)
    (hflags : ∀ id < session.calls.size, (after.call id).canceled = (middle.call id).canceled) :
    Alerts session after := by
  refine ⟨?_, ?_⟩
  · rw [hwatches]
    exact h.fewer
  · rw [hwatches]
    exact h.raises.of_flags hflags

theorem Alerts.trans
    {session middle after : Session}
    (h : Alerts session middle)
    (hresembles : session.calls.Resembles middle.calls)
    (h' : Alerts middle after) :
    Alerts session after := by
  refine ⟨fun watch => Nat.le_trans (h'.fewer watch) (h.fewer watch), ?_⟩
  refine (h.raises.trans hresembles h'.raises).congr fun root => ?_
  constructor
  · rintro ⟨phase, hfewer⟩
    rcases Nat.lt_or_ge (middle.watches.count (phase, root))
      (session.watches.count (phase, root)) with hfirst | hfirst
    · exact Or.inl ⟨phase, hfirst⟩
    · exact Or.inr ⟨phase, Nat.lt_of_lt_of_le hfewer hfirst⟩
  · rintro (⟨phase, hfewer⟩ | ⟨phase, hfewer⟩)
    · exact ⟨phase, Nat.lt_of_le_of_lt (h'.fewer (phase, root)) hfewer⟩
    · exact ⟨phase, Nat.lt_of_lt_of_le hfewer (h.fewer (phase, root))⟩

/-- Someone who watches tells a call to cancel, and then watches no longer. -/
theorem alerts_cancel
    (session : Session)
    (watch : SearchPhase × CallId)
    (rest : List (SearchPhase × CallId)) :
    Alerts { session with watches := watch :: rest }
      { (session.cancel watch.2).2 with watches := rest } := by
  refine ⟨fun other => List.count_le_count_cons, ?_⟩
  refine (Calls.raises_cancel session.calls watch.2).congr fun root => ?_
  constructor
  · rintro ⟨phase, hfewer⟩
    by_contra hne
    have hcount : (watch :: rest).count (phase, root) = rest.count (phase, root) :=
      List.count_cons_of_ne fun heq => hne (congrArg Prod.snd heq).symm
    exact absurd hfewer (hcount ▸ Nat.lt_irrefl _)
  · rintro rfl
    refine ⟨watch.1, ?_⟩
    show rest.count watch < (watch :: rest).count watch
    rw [List.count_cons_self]
    exact Nat.lt_succ_self _

/-- Someone who watches for another phase goes on watching. -/
theorem Alerts.cons
    {session after : Session}
    {rest : List (SearchPhase × CallId)}
    (h : Alerts { session with watches := rest } after)
    (watch : SearchPhase × CallId) :
    Alerts { session with watches := watch :: rest }
      { after with watches := watch :: after.watches } := by
  refine ⟨fun other => ?_, h.raises.congr fun root => ?_⟩
  · have hfewer := h.fewer other
    simp only [List.count_cons] at hfewer ⊢
    omega
  · simp only [Loses, List.count_cons, Nat.add_lt_add_iff_right]

theorem alerts_alert
    (phase : SearchPhase)
    (watches : List (SearchPhase × CallId))
    (session : Session) :
    Alerts { session with watches := watches } (alert phase watches session).2 := by
  induction watches generalizing session with
  | nil => exact Alerts.refl _
  | cons watch rest ih =>
      rw [alert]
      split
      · have hone := alerts_cancel session watch rest
        cases hends : session.calls.cancelEnds watch.2 with
        | true =>
            rw [cancel_of_ends hends]
            exact hone.trans (Calls.marks_cancel session.calls watch.2).resembles (ih _)
        | false =>
            rw [cancel_of_not_ends hends]
            exact hone
      · exact (ih session).cons watch

/-! ### Pieces of bodies -/

theorem alerts_updateCall
    {change : Call → Call}
    (hcanceled : ∀ call, (change call).canceled = call.canceled)
    (session : Session)
    (id : CallId) :
    Alerts session (session.updateCall id change) :=
  (Alerts.refl session).of_flags rfl fun other _ =>
    Calls.field_modify Call.canceled change hcanceled session.calls id other

theorem alerts_enterPhase
    (session : Session)
    (own : CallId)
    (phase : SearchPhase) :
    Alerts session (session.enterPhase own phase).2 := by
  unfold enterPhase
  dsimp only
  generalize hnote : session.note _ = noted
  have hnoted : Alerts session noted := by
    subst hnote
    exact (Alerts.refl session).of_flags rfl fun _ _ => rfl
  have hsame : session.calls.Resembles noted.calls := by
    subst hnote
    exact Calls.Resembles.refl session.calls
  have halert := hnoted.trans hsame (alerts_alert phase noted.watches noted)
  rcases hresult : alert phase noted.watches noted with ⟨_ | _, after⟩
  · rw [hresult] at halert
    exact halert
  · rw [hresult] at halert
    exact halert.of_flags rfl fun id _ => Calls.field_modify Call.canceled
      (fun call => { call with phase := phase }) (fun _ => rfl) after.calls own id

theorem alerts_failPhase
    (session : Session)
    (own : CallId)
    (failure : Failure) :
    Alerts session (session.failPhase own failure).2 := by
  apply alerts_updateCall
  exact fun _ => rfl

theorem alerts_passPhase
    {session : Session}
    {own : CallId}
    {phase : SearchPhase}
    {next : Session → Progress × Session}
    (hnext : ∀ marked, Marks session marked → Alerts marked (next marked).2) :
    Alerts session (session.passPhase own phase next).2 := by
  have halerts := alerts_enterPhase session own phase
  have hmarks := marks_enterPhase session own phase
  unfold passPhase
  rcases hresult : session.enterPhase own phase with ⟨_ | _, after⟩
  · rw [hresult] at halerts hmarks
    exact halerts.trans hmarks.calls.resembles (alerts_failPhase after own _)
  · rw [hresult] at halerts hmarks
    exact halerts.trans hmarks.calls.resembles (hnext after hmarks)

theorem alerts_issue
    (session : Session)
    (own : CallId)
    (search : Search)
    (frame : Frame) :
    Alerts session (session.issue own search frame).2 := by
  unfold issue
  dsimp only
  split
  · exact alerts_failPhase session own _
  · have hadds := (Calls.added_add session.calls (.search search)).adds
    refine (Alerts.refl session).of_flags rfl fun id hid => ?_
    have hflag := Calls.field_modify Call.canceled
      (fun call => { call with next := some (session.calls.add (.search search)).2 })
      (fun _ => rfl) (session.calls.add (.search search)).1 own id
    exact hflag.trans (congrArg Call.canceled (hadds.old id hid))

theorem alerts_begin
    (session : Session)
    (own : CallId) :
    Alerts session (session.begin own).2 := by
  unfold begin
  dsimp only
  cases (session.call own).plan with
  | recording leaf =>
      apply alerts_updateCall
      exact fun _ => rfl
  | search search => exact (Alerts.refl session).of_flags rfl fun _ _ => rfl
  | traceSearch search =>
      exact alerts_passPhase fun marked _ => alerts_issue marked own search.listing _
  | constant value => exact Alerts.refl session
  | mapped first mapper => exact Alerts.refl session
  | flatMapped first mapper => exact Alerts.refl session

theorem alerts_fetchListed
    (session : Session)
    (own : CallId)
    (search : TraceSearch)
    (ids : List String) :
    Alerts session (session.fetchListed own search ids).2 := by
  unfold fetchListed
  split
  · exact alerts_passPhase fun marked _ => Alerts.refl marked
  · exact alerts_passPhase fun marked _ => alerts_issue marked own (search.fetch ids) _

theorem alerts_assembleFetched
    (session : Session)
    (own : CallId)
    (search : TraceSearch)
    (ids : List String)
    (spans : List Span) :
    Alerts session (session.assembleFetched own search ids spans).2 := by
  unfold assembleFetched
  refine alerts_passPhase fun marked _ => ?_
  cases Trace.assemble search.criteria search.strict ids spans with
  | error error => exact alerts_failPhase marked own _
  | ok traces =>
      have halerts := alerts_enterPhase marked own .done
      dsimp only
      rcases hresult : marked.enterPhase own .done with ⟨_ | _, after⟩
      · rw [hresult] at halerts
        exact halerts
      · rw [hresult] at halerts
        exact halerts

/-- A body that goes on without a mapper. -/
theorem alerts_resume
    {session : Session}
    {frame : Frame}
    {outcome : Outcome}
    (hnot : ¬ session.Applies frame outcome) :
    Alerts session (session.resume frame outcome).2 := by
  cases outcome with
  | error failure =>
      cases frame with
      | listing own search => exact alerts_failPhase session own failure
      | fetching own search ids => exact alerts_failPhase session own failure
      | _ => exact Alerts.refl session
  | ok value =>
      cases frame with
      | leaf own recording =>
          rw [resume]
          cases recording.failure with
          | none => exact Alerts.refl session
          | some failure => exact Alerts.refl session
      | reply own search reply => exact Alerts.refl session
      | next own => exact Alerts.refl session
      | listing own search => exact alerts_fetchListed session own search value.texts
      | fetching own search ids =>
          exact alerts_assembleFetched session own search ids value.spans
      | mapped own mapper => exact absurd trivial hnot
      | first own mapper =>
          rw [resume, applyFlatMapper, if_pos (eq_true_of_ne_false hnot)]
          exact Alerts.refl session

/-- A mapper tells its labelled calls, and nobody else tells any. -/
structure Maps (labels : List String) (session after : Session) : Prop where
  watches : after.watches = session.watches
  raises : session.calls.Raises (fun root => root ∈ session.targets labels) after.calls

theorem maps_cancelAll
    (labels : List String)
    (session : Session)
    (entry : Observation) :
    Maps labels session (cancelAll labels (session.note entry)).2 := by
  have hraises := raises_cancelAll labels (session.note entry)
  refine ⟨?_, hraises.congr fun root => ?_⟩
  · exact related_cancelAll (R := fun session after => after.watches = session.watches)
      (fun _ => rfl) (fun h h' => h'.trans h) (fun _ _ => rfl) labels (session.note entry)
  · have hsame : (session.note entry).targets labels = session.targets labels := by
      refine targets_congr ?_ ?_ labels
      · rfl
      · exact Calls.Resembles.refl session.calls
    rw [hsame]

theorem Maps.of_flags
    {labels : List String}
    {session middle after : Session}
    (h : Maps labels session middle)
    (hwatches : after.watches = middle.watches)
    (hflags : ∀ id < session.calls.size, (after.call id).canceled = (middle.call id).canceled) :
    Maps labels session after :=
  ⟨hwatches.trans h.watches, h.raises.of_flags hflags⟩

/-- To choose a call and to go on to it raises no flag. -/
theorem maps_applyFlatMapper
    {session : Session}
    {own : CallId}
    {mapper : Value → Mapping (Stage Plan)}
    {value : Value}
    (hformed : session.Formed)
    (hflag : (session.call own).canceled = false) :
    Maps (mapper value).cancels session (session.applyFlatMapper own mapper value).2 := by
  have hmaps := maps_cancelAll (mapper value).cancels session (.applied own)
  have hmarks := marks_cancelAll (mapper value).cancels (session.note (.applied own))
  have hnoted : (session.note (.applied own)).Formed := ⟨hformed.staged, hformed.labels⟩
  unfold applyFlatMapper
  rw [if_neg (by simp [hflag])]
  dsimp only
  rcases hresult : cancelAll (mapper value).cancels (session.note (.applied own)) with
    ⟨_ | _, marked⟩
  · rw [hresult] at hmaps
    exact hmaps
  · rw [hresult] at hmaps hmarks
    dsimp only
    cases hchosen : (mapper value).result.bind marked.stageCall with
    | error failure => exact hmaps
    | ok chosen =>
        obtain ⟨stage, _, hstage⟩ := exists_stageCall_of_bind hchosen
        have hadds := (stageCall_eq_ok (hnoted.of_marks hmarks) hstage).1
        have hwatches : chosen.2.watches = marked.watches := by
          rw [eq_of_stageCall hstage]
        refine hmaps.of_flags ?_ fun id hid => ?_
        · exact hwatches
        · have hset := Calls.field_modify Call.canceled
            (fun call => { call with next := some chosen.1 }) (fun _ => rfl) chosen.2.calls own id
          have hlt : id < marked.calls.size := hmarks.calls.size.symm ▸ hid
          exact hset.trans (congrArg Call.canceled (hadds.old id hlt))

/-- A body that goes on with a mapper. -/
theorem maps_resume
    {session : Session}
    {frame : Frame}
    {value : Value}
    (hformed : session.Formed)
    (happlies : session.Applies frame (.ok value)) :
    Maps (frame.cancels value) session (session.resume frame (.ok value)).2 := by
  cases frame with
  | mapped own mapper =>
      have hmaps := maps_cancelAll (mapper value).cancels session (.applied own)
      rw [resume, applyMapper]
      dsimp only [Frame.cancels]
      rcases hresult : cancelAll (mapper value).cancels (session.note (.applied own)) with
        ⟨_ | _, after⟩
      · rw [hresult] at hmaps
        exact hmaps
      · rw [hresult] at hmaps
        exact hmaps
  | first own mapper => exact maps_applyFlatMapper hformed happlies
  | _ => exact absurd happlies id

/-! ### Steps -/

/-- To go on from a body to the next point changes no flag. -/
theorem canceled_advance
    (session : Session)
    (id : TaskId)
    (own : CallId)
    (progress : Progress)
    (other : CallId) :
    ((session.advance id own progress).call other).canceled = (session.call other).canceled := by
  cases progress with
  | ends outcome =>
      rw [advance_ends]
      exact Calls.get_setState Call.canceled _ (fun _ => rfl) session.calls own other
  | executes next frame => rfl
  | waits gate frame =>
      obtain ⟨_, _, _, heq⟩ := exists_advance_waits session id own gate frame
      rw [heq]
      rfl

theorem watches_advance
    (session : Session)
    (id : TaskId)
    (own : CallId)
    (progress : Progress) :
    (session.advance id own progress).watches = session.watches := by
  cases progress with
  | ends outcome => rfl
  | executes next frame => rfl
  | waits gate frame =>
      obtain ⟨_, _, _, heq⟩ := exists_advance_waits session id own gate frame
      rw [heq]

theorem Alerts.advance
    {session middle : Session}
    (h : Alerts session middle)
    (task : TaskId)
    (own : CallId)
    (progress : Progress) :
    Alerts session (middle.advance task own progress) :=
  h.of_flags (watches_advance middle task own progress) fun id _ =>
    canceled_advance middle task own progress id

theorem Maps.advance
    {labels : List String}
    {session middle : Session}
    (h : Maps labels session middle)
    (task : TaskId)
    (own : CallId)
    (progress : Progress) :
    Maps labels session (middle.advance task own progress) :=
  h.of_flags (watches_advance middle task own progress) fun id _ =>
    canceled_advance middle task own progress id

/-- The running task is about to apply the mapper of a frame to a value. -/
def IsApplying (session : Session) (frame : Frame) (value : Value) : Prop :=
  ∃ task rest, session.active = some (task, .after (.ok value)) ∧
    (session.task task).stack = frame :: rest ∧ session.Applies frame (.ok value)

theorem maps_step
    {session : Session}
    {frame : Frame}
    {value : Value}
    (h : session.Sound)
    (happlying : session.IsApplying frame value) :
    Maps (frame.cancels value) session session.step := by
  obtain ⟨task, rest, hactive, hstack, happlies⟩ := happlying
  have hengaged := engaged_reopening h hactive hstack
  have hopened : (session.reopening task rest).Applies frame (.ok value) := happlies
  have hmaps := maps_resume hengaged.formed hopened
  have hsame : (session.reopening task rest).targets (frame.cancels value) =
      session.targets (frame.cancels value) := by
    refine targets_congr ?_ ?_ _
    · rfl
    · exact Calls.Resembles.refl session.calls
  rw [step_after_cons hactive hstack]
  obtain ⟨hwatches, hraises⟩ := hmaps.advance task frame.call
    ((session.reopening task rest).resume frame (.ok value)).1
  exact ⟨hwatches, hsame ▸ hraises⟩

theorem alerts_wake
    (session : Session)
    (id : TaskId) :
    Alerts session (session.wake id) := by
  refine (Alerts.refl session).of_flags ?_ fun other _ => ?_
  · unfold wake
    dsimp only
    split <;> rfl
  · rw [call, call, calls_wake]

theorem alerts_report
    (session : Session)
    (id : TaskId)
    (outcome : Outcome) :
    Alerts session (session.report id outcome) := by
  refine (Alerts.refl session).of_flags ?_ fun other _ => ?_
  · unfold report
    dsimp only
    split <;> rfl
  · rw [call, call, calls_report]

/-- A step in which no mapper is applied. -/
theorem alerts_step
    {session : Session}
    (hnone : ∀ frame value, ¬ session.IsApplying frame value) :
    Alerts session session.step := by
  rcases hactive : session.active with _ | ⟨task, own | outcome⟩
  · rcases step_of_idle hactive with heq | ⟨id, rest, _, heq⟩
    · rw [heq]
      exact Alerts.refl session
    · rw [heq]
      have hwake := alerts_wake { session with ready := rest } id
      exact ⟨hwake.fewer, hwake.raises⟩
  · by_cases hstate : (session.call own).state = .new
    · cases hflag : (session.call own).canceled with
      | true =>
          rw [step_before_of_canceled hactive hstate hflag]
          exact (Alerts.refl session).of_flags rfl fun id _ =>
            Calls.get_setState Call.canceled .canceled (fun _ => rfl) session.calls own id
      | false =>
          rw [step_before_of_new hactive hstate hflag]
          have hopening : Alerts session (session.opening own) :=
            (Alerts.refl session).of_flags rfl fun id _ =>
              Calls.get_setState Call.canceled .executing (fun _ => rfl) session.calls own id
          have hbegin := hopening.trans (Calls.resembles_setState session.calls own .executing)
            (alerts_begin (session.opening own) own)
          exact hbegin.advance task own _
    · rw [step_before_of_ne_new hactive hstate]
      exact (Alerts.refl session).of_flags rfl fun _ _ => rfl
  · cases hstack : (session.task task).stack with
    | nil =>
        rw [step_after_nil hactive hstack]
        have hreport := alerts_report { session with active := none } task outcome
        exact ⟨hreport.fewer, hreport.raises⟩
    | cons frame rest =>
        rw [step_after_cons hactive hstack]
        have hnot : ¬ (session.reopening task rest).Applies frame outcome := by
          intro happlies
          cases outcome with
          | error failure => cases frame <;> exact happlies
          | ok value => exact hnone frame value ⟨task, rest, hactive, hstack, happlies⟩
        obtain ⟨hfewer, hraises⟩ := (alerts_resume hnot).advance task frame.call
          ((session.reopening task rest).resume frame outcome).1
        exact ⟨hfewer, hraises⟩

/-! ### Moves -/

/-- A call is told to cancel in a move: from outside, by a mapper that is applied, or by someone who
watches a trace search, and then watches no longer. -/
inductive IsTold (root : CallId) : Session → Session → Prop
  | outside (session : Session)
      (hidle : session.IsIdle) (hroot : root < session.calls.size) :
      IsTold root session (session.cancel root).2
  | mapper (session : Session) (frame : Frame) (value : Value)
      (happlying : session.IsApplying frame value)
      (htarget : root ∈ session.targets (frame.cancels value)) :
      IsTold root session session.step
  | watcher (session : Session)
      (hloses : Loses session.watches session.step.watches root) :
      IsTold root session session.step

/-- A call is canceled in a move: canceling reaches it from a call that is told. -/
structure Cancels (id : CallId) (session after : Session) : Prop where
  lt : id < session.calls.size
  told : ∃ root, IsTold root session after ∧ id ∈ (session.calls.descent root).reached

theorem IsTold.move
    {session after : Session}
    {root : CallId}
    (h : IsTold root session after) :
    Move session after := by
  cases h with
  | outside hidle hroot => exact Move.cancel session root hidle hroot
  | mapper => exact Move.step session
  | watcher => exact Move.step session

/-- Canceling reaches no call that keeps its flag down, but for leaves that ignore it. -/
theorem canceled_of_isTold
    {session after : Session}
    {root id : CallId}
    (h : session.Sound)
    (htold : IsTold root session after)
    (hid : id < session.calls.size)
    (hheeds : (session.call id).plan.ignoresCancel = false)
    (hreached : id ∈ (session.calls.descent root).reached) :
    (after.call id).canceled = true := by
  cases htold with
  | outside hidle hroot =>
      exact (Calls.raises_cancel session.calls root id hid).mpr
        (Or.inr ⟨hheeds, root, rfl, hreached⟩)
  | mapper frame value happlying htarget =>
      exact ((maps_step h happlying).raises id hid).mpr
        (Or.inr ⟨hheeds, root, htarget, hreached⟩)
  | watcher hloses =>
      by_cases hmapper : ∃ frame value, session.IsApplying frame value
      · obtain ⟨frame, value, happlying⟩ := hmapper
        rw [(maps_step h happlying).watches] at hloses
        exact absurd hloses (not_loses_self session.watches root)
      · have halerts := alerts_step fun frame value happlying => hmapper ⟨frame, value, happlying⟩
        exact (halerts.raises id hid).mpr (Or.inr ⟨hheeds, root, hloses, hreached⟩)

/-- Whose flag goes up is reached from a call that is told to cancel. -/
theorem exists_isTold_of_raised
    {session after : Session}
    {id : CallId}
    (h : session.Sound)
    (hmove : Move session after)
    (hid : id < session.calls.size)
    (hbefore : (session.call id).canceled = false)
    (hafter : (after.call id).canceled = true) :
    ∃ root, IsTold root session after ∧ id ∈ (session.calls.descent root).reached := by
  have hup : (session.call id).canceled ≠ true := by simp [hbefore]
  rcases adds_of_move h.steady hmove with rfl | ⟨hidle, root, hroot, rfl⟩ | hadds
  · by_cases hmapper : ∃ frame value, session.IsApplying frame value
    · obtain ⟨frame, value, happlying⟩ := hmapper
      obtain ⟨_, root, htarget, hreached⟩ :=
        (((maps_step h happlying).raises id hid).mp hafter).resolve_left hup
      exact ⟨root, IsTold.mapper session frame value happlying htarget, hreached⟩
    · have halerts := alerts_step fun frame value happlying => hmapper ⟨frame, value, happlying⟩
      obtain ⟨_, root, hloses, hreached⟩ :=
        ((halerts.raises id hid).mp hafter).resolve_left hup
      exact ⟨root, IsTold.watcher session hloses, hreached⟩
  · obtain ⟨_, other, rfl, hreached⟩ :=
      ((Calls.raises_cancel session.calls root id hid).mp hafter).resolve_left hup
    exact ⟨other, IsTold.outside session hidle hroot, hreached⟩
  · exact absurd (congrArg Call.canceled (hadds.old id hid) ▸ hafter) hup

/-- **Only canceling raises a flag.**  After a move the flag of a call is up if and only if it was
up before or the call was canceled in the move. -/
theorem canceled_of_move_iff
    {session after : Session}
    {id : CallId}
    (h : session.Sound)
    (hmove : Move session after)
    (hid : id < session.calls.size)
    (hheeds : (session.call id).plan.ignoresCancel = false) :
    (after.call id).canceled = true ↔
      (session.call id).canceled = true ∨ Cancels id session after := by
  constructor
  · intro hafter
    cases hbefore : (session.call id).canceled with
    | true => exact Or.inl rfl
    | false => exact Or.inr ⟨hid, exists_isTold_of_raised h hmove hid hbefore hafter⟩
  · rintro (hbefore | ⟨_, root, htold, hreached⟩)
    · exact (flags_of_move h hmove).canceled id hid hbefore
    · exact canceled_of_isTold h htold hid hheeds hreached

end Session
end TraceArchive
