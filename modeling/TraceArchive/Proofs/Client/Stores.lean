import TraceArchive.Proofs.Client.Bystanders

/-!
# Span stores that cannot be set up

Setting up a span store takes three steps, and each of them may fail: the level of the logger, the
client, and the configuration.  A client belongs to all who share it.  One that was made for a span
store stays in the cache also when the configuration is refused after that; but for such a client a
failure leaves the cache as it was.

* `storeOutcome`: what setting up a span store comes to once the client is there.
* `StoreEnd`: every way to end, with what is cached then.
* `Stage`, `Sound.stage_step`, `stage_of_soleRun`: a span store is underway, or has ended in one of
  these ways.
* `unchanged_or_leftover`: what a failure leaves in the cache.
-/

set_option autoImplicit false

namespace TraceArchive
namespace ClientCache

/-! ### How it ends -/

/-- What setting up a span store comes to once its client is there. -/
def storeOutcome (settings : Settings) (client : Option ClientId) : CacheOutcome :=
  match settings.storeConfig with
  | .refused issues => .error (.invalidConfig issues)
  | .ok config => .ok (.store ⟨config, client⟩)

theorem storeOutcome_eq_error_iff
    {settings : Settings}
    {client : Option ClientId}
    {failure : CacheFailure} :
    storeOutcome settings client = .error failure ↔
      ∃ issues, settings.storeConfig = .refused issues ∧ failure = .invalidConfig issues := by
  unfold storeOutcome
  cases settings.storeConfig with
  | refused issues => simp [eq_comm]
  | ok config => simp

/-- A new client was made for settings, and nothing else has changed in the cache. -/
structure Leftover
    (before after : ClientCache)
    (settings : Settings)
    (client : ClientId) : Prop where
  uncached : Entries.get? (Connection.ofSettings settings).key before.entries = none
  fresh : ∀ entry ∈ before.entries, entry.2 < client
  made : .created client (.ofSettings settings) ∈ after.journal
  entries : after.entries = before.entries ++ [((Connection.ofSettings settings).key, client)]

/-- How setting up a span store ends, from one cache to another. -/
inductive StoreEnd (settings : Settings) (given : Bool) (before after : ClientCache) :
    CacheOutcome → Prop
  | interrupted
      (hentries : after.entries = before.entries) :
      StoreEnd settings given before after (.error .interrupted)
  | unknownLevel (name : String)
      (hentries : after.entries = before.entries) :
      StoreEnd settings given before after (.error (.unknownLevel name))
  | unopened {failure : CacheFailure} (attempt : Nat)
      (hopening : before.openings attempt = some failure)
      (hentries : after.entries = before.entries) :
      StoreEnd settings given before after (.error failure)
  | given
      (hgiven : given = true)
      (hentries : after.entries = before.entries) :
      StoreEnd settings given before after (storeOutcome settings none)
  | shared (client : ClientId)
      (hcached : Entries.get? (Connection.ofSettings settings).key before.entries = some client)
      (hentries : after.entries = before.entries) :
      StoreEnd settings given before after (storeOutcome settings (some client))
  | made (client : ClientId)
      (hgiven : given = false)
      (hleft : Leftover before after settings client) :
      StoreEnd settings given before after (storeOutcome settings (some client))

/-- A span store is underway, and the cache is as it was; or its task has ended. -/
inductive Stage (id : TaskId) (settings : Settings) (given : Bool) (before after : ClientCache) :
    Prop
  | underway
      (hjob : (after.task id).job = .createStore settings given)
      (hpoint : (after.task id).point = .start ∨
        (after.task id).point = .locking ∧ given = false)
      (hstate : (after.task id).state.isEnded = false)
      (hentries : after.entries = before.entries)
  | finished {outcome : CacheOutcome}
      (hstate : (after.task id).state = .ended outcome)
      (hend : StoreEnd settings given before after outcome)

section Stage

variable {before cache after : ClientCache} {id : TaskId} {settings : Settings} {given : Bool}

theorem Leftover.congr
    {client : ClientId}
    (h : Leftover cache after settings client)
    (hentries : cache.entries = before.entries) :
    Leftover before after settings client :=
  ⟨hentries ▸ h.uncached, hentries ▸ h.fresh, h.made, hentries ▸ h.entries⟩

theorem StoreEnd.congr
    {outcome : CacheOutcome}
    (h : StoreEnd settings given cache after outcome)
    (hentries : cache.entries = before.entries)
    (hopenings : cache.openings = before.openings) :
    StoreEnd settings given before after outcome := by
  cases h with
  | interrupted hkept => exact .interrupted (hkept.trans hentries)
  | unknownLevel name hkept => exact .unknownLevel name (hkept.trans hentries)
  | unopened attempt hopening hkept =>
      exact .unopened attempt (hopenings ▸ hopening) (hkept.trans hentries)
  | given hgiven hkept => exact .given hgiven (hkept.trans hentries)
  | shared client hcached hkept => exact .shared client (hentries ▸ hcached) (hkept.trans hentries)
  | made client hgiven hleft => exact .made client hgiven (hleft.congr hentries)

/-- The turn of a task starts from a cache that is as it was before. -/
theorem Stage.congr
    (h : Stage id settings given cache after)
    (hentries : cache.entries = before.entries)
    (hopenings : cache.openings = before.openings) :
    Stage id settings given before after := by
  cases h with
  | underway hjob hpoint hstate hkept =>
      exact .underway hjob hpoint hstate (hkept.trans hentries)
  | finished hstate hend => exact .finished hstate (hend.congr hentries hopenings)

/-- What a span store came to stays so while what is cached does. -/
theorem StoreEnd.mono
    {outcome : CacheOutcome}
    (h : StoreEnd settings given before cache outcome)
    (hentries : after.entries = cache.entries)
    (hjournal : ∃ news, after.journal = news ++ cache.journal) :
    StoreEnd settings given before after outcome := by
  cases h with
  | interrupted hkept => exact .interrupted (hentries.trans hkept)
  | unknownLevel name hkept => exact .unknownLevel name (hentries.trans hkept)
  | unopened attempt hopening hkept => exact .unopened attempt hopening (hentries.trans hkept)
  | given hgiven hkept => exact .given hgiven (hentries.trans hkept)
  | shared client hcached hkept => exact .shared client hcached (hentries.trans hkept)
  | made client hgiven hleft =>
      obtain ⟨news, hjournal⟩ := hjournal
      refine .made client hgiven ⟨hleft.uncached, hleft.fresh, ?_, hentries.trans hleft.entries⟩
      exact hjournal ▸ List.mem_append_right news hleft.made

/-- A move of others does not take a span store further. -/
theorem Stage.mono
    (h : Stage id settings given before cache)
    (hstays : (cache.task id).Stays (after.task id))
    (hentries : after.entries = cache.entries)
    (hjournal : ∃ news, after.journal = news ++ cache.journal) :
    Stage id settings given before after := by
  cases h with
  | underway hjob hpoint hstate hkept =>
      refine .underway (hstays.job.trans hjob) (hstays.point.symm ▸ hpoint) ?_
        (hentries.trans hkept)
      cases hafter : (after.task id).state with
      | ended outcome =>
          rw [(hstays.ended outcome).mp hafter] at hstate
          cases hstate
      | _ => rfl
  | finished hstate hend =>
      exact .finished ((hstays.ended _).mpr hstate) (hend.mono hentries hjournal)

/-- A failure leaves what is cached as it was, or a client for settings that are refused. -/
theorem StoreEnd.kept_or_leftover
    {failure : CacheFailure}
    (h : StoreEnd settings given before after (.error failure)) :
    after.entries = before.entries ∨
      given = false ∧ (∃ issues, settings.storeConfig = .refused issues ∧
        failure = .invalidConfig issues) ∧ ∃ client, Leftover before after settings client := by
  generalize houtcome : (Except.error failure : CacheOutcome) = outcome at h
  cases h with
  | interrupted hentries => exact Or.inl hentries
  | unknownLevel name hentries => exact Or.inl hentries
  | unopened attempt hopening hentries => exact Or.inl hentries
  | given hgiven hentries => exact Or.inl hentries
  | shared client hcached hentries => exact Or.inl hentries
  | made client hgiven hleft =>
      exact Or.inr ⟨hgiven, storeOutcome_eq_error_iff.mp houtcome.symm, client, hleft⟩

/-- When settings are refused whose client was neither given nor cached, one was made. -/
theorem StoreEnd.exists_leftover
    {failure : CacheFailure}
    (h : StoreEnd settings given before after (.error failure))
    (hnot : given = false)
    (hnone : Entries.get? (Connection.ofSettings settings).key before.entries = none)
    (hopens : ∀ attempt, before.openings attempt ≠ some failure)
    (hrefused : ∃ issues, failure = .invalidConfig issues) :
    ∃ client, Leftover before after settings client := by
  obtain ⟨issues, rfl⟩ := hrefused
  generalize houtcome : (Except.error (.invalidConfig issues) : CacheOutcome) = outcome at h
  cases h with
  | interrupted => cases houtcome
  | unknownLevel => cases houtcome
  | unopened attempt hopening =>
      -- A client that cannot be made might fail just as refused settings do.
      cases houtcome
      exact absurd hopening (hopens attempt)
  | given hgiven => cases hgiven.symm.trans hnot
  | shared client hcached => cases hcached.symm.trans hnone
  | made client hgiven hleft => exact ⟨client, hleft⟩

/-! ### One turn -/

theorem state_finish
    (hid : id < cache.tasks.size)
    (outcome : CacheOutcome) :
    ((cache.finish id outcome).task id).state = .ended outcome :=
  congrArg CacheTask.state
    (task_update_self hid fun task => { task with state := .ended outcome })

theorem finishStore_spec
    (hid : id < cache.tasks.size)
    (settings : Settings)
    (client : Option ClientId) :
    (cache.finishStore id settings client).entries = cache.entries ∧
      ((cache.finishStore id settings client).task id).state =
        .ended (storeOutcome settings client) := by
  unfold ClientCache.finishStore storeOutcome
  cases settings.storeConfig with
  | refused issues => exact ⟨rfl, state_finish hid _⟩
  | ok config =>
      dsimp only
      have hlogged := quiet_log cache .info (readyLine config)
      exact ⟨hlogged.entries, state_finish (hlogged.jobs id hid).1 _⟩

/-- A task that sets up a span store has its client. -/
theorem deliver_of_createStore
    (hjob : (cache.task id).job = .createStore settings given)
    (client : ClientId) :
    cache.deliver id client = cache.finishStore id settings (some client) := by
  rw [ClientCache.deliver, hjob]

/-- A task that has the lock makes the client for its span store, unless that fails. -/
theorem Owned.stage_getCreated
    (h : Owned cache id)
    (hnumbered : ∀ entry ∈ cache.entries, entry.2 ≤ cache.clients)
    (hjob : (cache.task id).job = .createStore settings false)
    (hnone : Entries.get? (Connection.ofSettings settings).key cache.entries = none) :
    Stage id settings false cache (match cache.create (Connection.ofSettings settings) with
      | (.error failure, cache) => cache.release.finish id (.error failure)
      | (.ok client, cache) =>
          { cache with
            entries := Entries.put (Connection.ofSettings settings).key client
              cache.entries }.release.deliver id client) := by
  unfold ClientCache.create
  dsimp only
  cases hopening : cache.openings cache.attempts with
  | some failure =>
      have howned : Owned { cache with attempts := cache.attempts + 1 } id :=
        h.congr rfl rfl rfl rfl rfl
      have hid := lt_size_of_state howned.running_release (by simp)
      exact .finished (state_finish hid _)
        (.unopened cache.attempts hopening howned.spares_release.entries)
  | none =>
      let entered := (cache.note (.created (cache.clients + 1)
        (Connection.ofSettings settings))).enter (Connection.ofSettings settings).key
      have howned : Owned entered id := h.congr rfl rfl rfl rfl rfl
      have hid := lt_size_of_state howned.running_release (by simp)
      have hjob' : (entered.release.task id).job = .createStore settings false := by
        rw [howned.release.2]
        exact hjob
      obtain ⟨hentries, hstate⟩ := finishStore_spec hid settings (some (cache.clients + 1))
      -- The client is in the cache before the task has it, and before the settings are looked at.
      have hacts : Acts id entered
          (entered.release.finishStore id settings (some (cache.clients + 1))) :=
        (acts_release entered).trans (acts_finishStore _ _ _)
      obtain ⟨news, hjournal⟩ := hacts.journal
      change Stage id settings false cache (entered.release.deliver id (cache.clients + 1))
      rw [deliver_of_createStore hjob']
      refine .finished hstate (.made (cache.clients + 1) rfl ⟨hnone, fun entry hmem => ?_, ?_, ?_⟩)
      · exact Nat.lt_succ_of_le (hnumbered entry hmem)
      · exact hjournal ▸ List.mem_append_right news List.mem_cons_self
      · refine (hentries.trans howned.spares_release.entries).trans ?_
        exact Entries.put_of_notMem (Entries.get?_eq_none_iff.mp hnone) _

/-- A task that has the lock gets the client for its span store. -/
theorem Owned.stage_getLocked
    (h : Owned cache id)
    (hnumbered : ∀ entry ∈ cache.entries, entry.2 ≤ cache.clients)
    (hjob : (cache.task id).job = .createStore settings false) :
    Stage id settings false cache (cache.getLocked id settings) := by
  unfold ClientCache.getLocked
  dsimp only
  cases hcached : Entries.get? (Connection.ofSettings settings).key cache.entries with
  | some client =>
      have hid := lt_size_of_state h.running_release (by simp)
      have hjob' : (cache.release.task id).job = .createStore settings false := by
        rw [h.release.2]
        exact hjob
      obtain ⟨hentries, hstate⟩ := finishStore_spec hid settings (some client)
      dsimp only
      rw [deliver_of_createStore hjob']
      exact .finished hstate (.shared client hcached (hentries.trans h.spares_release.entries))
  | none =>
      generalize hline : "Creating " ++ (Connection.ofSettings settings).engine.name ++
        " client for " ++ (Connection.ofSettings settings).account.host = line
      have hlogged := quiet_log cache .info line
      have hlasts : Acts id cache (cache.log .info line) := acts_log cache .info line
      have hid := lt_size_of_state h.running (by simp)
      refine ((h.log .info line).stage_getCreated ?_ ?_ ?_).congr hlogged.entries hlasts.openings
      · rw [hlogged.entries, hlogged.clients]
        exact hnumbered
      · exact (hlogged.jobs id hid).2.trans hjob
      · rw [hlogged.entries]
        exact hcached

/-- A task that has the lock does what it needs the lock for. -/
theorem Owned.stage_withLock
    (h : Owned cache id)
    (hnumbered : ∀ entry ∈ cache.entries, entry.2 ≤ cache.clients)
    (hjob : (cache.task id).job = .createStore settings false) :
    Stage id settings false cache (cache.withLock id) := by
  unfold ClientCache.withLock
  rw [hjob]
  exact h.stage_getLocked hnumbered hjob

/-- A running task takes the lock, or waits for it. -/
theorem Guarded.stage_acquire
    (h : Guarded cache)
    (hnumbered : ∀ entry ∈ cache.entries, entry.2 ≤ cache.clients)
    (hrunning : (cache.task id).state = .running)
    (hjob : (cache.task id).job = .createStore settings false) :
    Stage id settings false cache (cache.acquire id) := by
  unfold ClientCache.acquire
  split
  · rename_i hfree
    exact ((h.take_of_free hrunning hfree).stage_withLock hnumbered hjob).congr rfl rfl
  · have hself : ({ cache with queue := cache.queue ++ [(id, Ticket.waiting)] }.park id .lock
        .locking).task id = { cache.task id with state := .waiting .lock, point := .locking } :=
      task_update_self (lt_size_of_state hrunning (by simp)) _
    refine .underway ?_ ?_ ?_ rfl
    · rw [hself]
      exact hjob
    · rw [hself]
      exact Or.inr ⟨rfl, rfl⟩
    · rw [hself]
      rfl

theorem Guarded.stage_getClient
    (h : Guarded cache)
    (hnumbered : ∀ entry ∈ cache.entries, entry.2 ≤ cache.clients)
    (hrunning : (cache.task id).state = .running)
    (hjob : (cache.task id).job = .createStore settings false) :
    Stage id settings false cache (cache.getClient id settings) := by
  unfold ClientCache.getClient
  split
  · rename_i client hcached
    have hid := lt_size_of_state hrunning (by simp)
    obtain ⟨hentries, hstate⟩ := finishStore_spec hid settings (some client)
    rw [deliver_of_createStore hjob]
    exact .finished hstate (.shared client hcached hentries)
  · exact h.stage_acquire hnumbered hrunning hjob

/-- A running task starts to set up a span store. -/
theorem Guarded.stage_begin
    (h : Guarded cache)
    (hnumbered : ∀ entry ∈ cache.entries, entry.2 ≤ cache.clients)
    (hrunning : (cache.task id).state = .running)
    (hjob : (cache.task id).job = .createStore settings given) :
    Stage id settings given cache (cache.begin id) := by
  have hid := lt_size_of_state hrunning (by simp)
  unfold ClientCache.begin
  rw [hjob]
  dsimp only
  split
  · rename_i name _
    exact .finished (state_finish hid _) (.unknownLevel name rfl)
  · rename_i logger _
    cases given with
    | true =>
        have hset : id < (ClientCache.tasks { cache with logger := logger }).size := hid
        obtain ⟨hentries, hstate⟩ := finishStore_spec hset settings none
        exact .finished hstate (.given rfl hentries)
    | false =>
        have hset : Guarded { cache with logger := logger } := h.congr rfl rfl rfl rfl rfl
        exact (hset.stage_getClient hnumbered hrunning hjob).congr rfl rfl

/-- A task that waited for the lock has it. -/
theorem Guarded.stage_proceed
    (h : Guarded cache)
    (hnumbered : ∀ entry ∈ cache.entries, entry.2 ≤ cache.clients)
    (hstate : (cache.task id).state = .ready .proceed)
    (hjob : (cache.task id).job = .createStore settings given)
    (hpoint : (cache.task id).point = .start ∨ (cache.task id).point = .locking ∧ given = false) :
    Stage id settings given cache
      ((cache.updateTask id fun task => { task with state := .running }).proceed id) := by
  have hid := lt_size_of_state hstate (by simp)
  have hself : (cache.updateTask id fun task => { task with state := .running }).task id =
      { cache.task id with state := .running } := task_update_self hid _
  have hjob' := (congrArg CacheTask.job hself).trans hjob
  unfold ClientCache.proceed
  rw [hself]
  dsimp only
  rcases hpoint with hstart | ⟨hlocking, rfl⟩
  · rw [hstart]
    have hresumed := h.resume hid hstate (Or.inl (by simp [hstart]))
    have hrunning := congrArg CacheTask.state hself
    exact (hresumed.stage_begin hnumbered hrunning hjob').congr rfl rfl
  · rw [hlocking]
    have howned := h.owned_of_granted hstate hlocking
    exact (howned.stage_withLock hnumbered hjob').congr rfl rfl

theorem state_interrupt (hid : id < cache.tasks.size) :
    ((cache.interrupt id).task id).state = .ended (.error .interrupted) := by
  have hkept : ∀ {after : ClientCache}, Acts id cache after → id < after.tasks.size :=
    fun hacts => (hacts.jobs id hid).1
  unfold ClientCache.interrupt
  dsimp only
  refine state_finish ?_ _
  split
  · exact hid
  · split
    · exact hid
    · exact hkept ((acts_leaveQueue cache).trans (acts_wakeFirst _))
  · exact hkept (acts_release cache)

/-- A task that sets up a span store takes its turn. -/
theorem Guarded.stage_wake
    (h : Guarded cache)
    (hnumbered : ∀ entry ∈ cache.entries, entry.2 ≤ cache.clients)
    (hid : id < cache.tasks.size)
    (hjob : (cache.task id).job = .createStore settings given)
    (hpoint : (cache.task id).point = .start ∨ (cache.task id).point = .locking ∧ given = false)
    (hopen : (cache.task id).state.isEnded = false) :
    Stage id settings given cache (cache.wake id) := by
  have hself : (cache.updateTask id fun task => { task with state := .running }).task id =
      { cache.task id with state := .running } := task_update_self hid _
  have hrunning := congrArg CacheTask.state hself
  have hsize : id < (cache.updateTask id fun task => { task with state := .running }).tasks.size :=
    lt_size_of_state hrunning (by simp)
  unfold ClientCache.wake
  dsimp only
  split
  · rename_i hstate
    have hresumed := h.resume hid hstate (Or.inr (by rw [CacheTask.isPaused, hstate]))
    have hjob' := (congrArg CacheTask.job hself).trans hjob
    exact (hresumed.stage_begin hnumbered hrunning hjob').congr rfl rfl
  · rename_i hstate
    exact h.stage_proceed hnumbered hstate hjob hpoint
  · rename_i hstate
    exact .finished (state_interrupt hsize) (.interrupted (h.quiet_interrupt hid hstate).entries)
  · exact .finished (state_finish hsize _) (.interrupted rfl)
  · exact .underway hjob hpoint hopen rfl

/-- **A turn of its task** takes a span store further, or ends it. -/
theorem Sound.stage_step
    {rest : List TaskId}
    (h : Sound cache)
    (hready : cache.ready = id :: rest)
    (hopenings : cache.openings = before.openings)
    (hstage : Stage id settings given before cache) :
    Stage id settings given before cache.step := by
  obtain ⟨hpopped, hid⟩ := h.toGuarded.pop hready
  unfold ClientCache.step
  rw [hready]
  dsimp only
  cases hstage with
  | underway hjob hpoint hstate hentries =>
      exact (hpopped.stage_wake h.numbered hid hjob hpoint hstate).congr hentries hopenings
  | finished hstate hend =>
      have hover : (ClientCache.task { cache with ready := rest } id).state = .ended _ := hstate
      unfold ClientCache.wake
      rw [hover]
      exact .finished hstate (hend.mono rfl ⟨[], rfl⟩)

end Stage

/-! ### A whole run -/

/-- A move in which nobody but one task changes what is cached. -/
def SoleMove (id : TaskId) (cache after : ClientCache) : Prop :=
  Move cache after ∧
    (after.entries = cache.entries ∨ after = cache.step ∧ ∃ rest, cache.ready = id :: rest)

/-- A run in which nobody but one task changes what is cached. -/
abbrev SoleRun (id : TaskId) : ClientCache → ClientCache → Prop :=
  Relation.ReflTransGen (SoleMove id)

section SoleRun

variable {cache after : ClientCache} {settings : Settings} {given : Bool}

/-- The cache with a new task that is to set up a span store. -/
theorem stage_spawn (cache : ClientCache) (name : String) (settings : Settings) (given : Bool) :
    Stage cache.tasks.size settings given cache
      (cache.spawn name (.createStore settings given)) := by
  have hself : (cache.spawn name (.createStore settings given)).task cache.tasks.size =
      ⟨name, .createStore settings given, .ready .start, .start⟩ := by
    rw [task_spawn, if_pos rfl]
  refine .underway ?_ ?_ ?_ rfl
  · rw [hself]
  · rw [hself]
    exact Or.inl rfl
  · rw [hself]
    rfl

/-- However the tasks take turns, a span store is underway or has ended in one of its ways. -/
theorem stage_of_soleRun
    {name : String}
    (h : cache.Reachable)
    (hrun : SoleRun cache.tasks.size (cache.spawn name (.createStore settings given)) after) :
    after.Reachable ∧ cache.tasks.size < after.tasks.size ∧ after.openings = cache.openings ∧
      Stage cache.tasks.size settings given cache after := by
  induction hrun with
  | refl =>
      obtain ⟨openings, closings, hcame⟩ := h
      refine ⟨⟨openings, closings, hcame.tail (.spawn _ _ _)⟩, ?_, rfl, stage_spawn _ _ _ _⟩
      rw [ClientCache.spawn, Array.size_push]
      exact Nat.lt_succ_self _
  | tail _ hlast ih =>
      obtain ⟨⟨openings, closings, hcame⟩, hid, hopenings, hstage⟩ := ih
      -- A move is a turn of this task, or leaves the task where it is; and a move that changes what
      -- is cached is such a turn.
      obtain ⟨hmove, hsole⟩ := hlast
      have hsound := sound_of_reachable ⟨openings, closings, hcame⟩
      have hlasts := lasts_of_move hsound.toGuarded hmove
      refine ⟨⟨openings, closings, hcame.tail hmove⟩, (hlasts.jobs _ hid).1,
        hlasts.openings.trans hopenings, ?_⟩
      rcases stays_of_move hsound.toGuarded hid hmove with hstays | ⟨rest, hready, rfl⟩
      · rcases hsole with hentries | ⟨rfl, rest, hready⟩
        · exact hstage.mono hstays hentries hlasts.journal
        · exact hsound.stage_step hready hopenings hstage
      · exact hsound.stage_step hready hopenings hstage

/-- **What a failure leaves in the cache.**  When a span store cannot be set up, the cache is as it
was before, however other tasks took their turns, as long as they left it as it was.  The exception
is a client that was made before the configuration was refused: it stays, after those that were
cached before.  It is met whenever the configuration is what is wrong, and no client was given or
cached. -/
theorem unchanged_or_leftover
    {name : String}
    {failure : CacheFailure}
    (h : cache.Reachable)
    (hrun : SoleRun cache.tasks.size (cache.spawn name (.createStore settings given)) after)
    (hfailed : (after.task cache.tasks.size).state = .ended (.error failure)) :
    (after.entries = cache.entries ∨
      given = false ∧ (∃ issues, settings.storeConfig = .refused issues ∧
        failure = .invalidConfig issues) ∧ ∃ client, Leftover cache after settings client) ∧
    (given = false → Entries.get? (Connection.ofSettings settings).key cache.entries = none →
      (∀ attempt, cache.openings attempt ≠ some failure) →
        (∃ issues, failure = .invalidConfig issues) →
          ∃ client, Leftover cache after settings client) := by
  obtain ⟨-, -, -, hstage⟩ := stage_of_soleRun h hrun
  have hend : StoreEnd settings given cache after (.error failure) := by
    cases hstage with
    | underway _ _ hstate _ =>
        rw [hfailed] at hstate
        cases hstate
    | finished hstate hend => exact TaskState.ended.inj (hstate.symm.trans hfailed) ▸ hend
  exact ⟨hend.kept_or_leftover, hend.exists_leftover⟩

end SoleRun

/-- An empty cache whose second client cannot be made.  Clients are slow to close, and fail to. -/
def unlucky : ClientCache :=
  start (fun attempt => if attempt = 1 then some (.raised "ValueError" "no certificate") else none)
    fun _ => ⟨some "slow", some (.raised "ConnectionError" "backend down")⟩

/-- The cache while its first client is slow to close. -/
def contested : ClientCache :=
  ((unlucky.spawn "first" (.get (settingsFor .elasticsearch))).spawn "close" .close).step.step

theorem reachable_contested : contested.Reachable := by
  have hfirst := Relation.ReflTransGen.single
    (Move.spawn unlucky "first" (.get (settingsFor .elasticsearch)))
  have hclose := hfirst.tail (Move.spawn _ "close" .close)
  exact ⟨_, _, (hclose.tail (Move.step _)).tail (Move.step _)⟩

/-- The cache with a task that is to set up a span store for another backend. -/
def storeAsked : ClientCache :=
  contested.spawn "store" (.createStore (settingsFor .opensearch) false)

/-- This task waited for the lock until the first client had failed to close, and failed to make its
own. -/
def storeFailed : ClientCache :=
  (storeAsked.step.openGate "slow").step.step

theorem soleRun_storeFailed : SoleRun 2 storeAsked storeFailed := by
  have hwaits : SoleMove 2 storeAsked storeAsked.step := ⟨.step _, Or.inr ⟨rfl, [], rfl⟩⟩
  have hopened : SoleMove 2 storeAsked.step (storeAsked.step.openGate "slow") :=
    ⟨.openGate _ _, Or.inl rfl⟩
  have hreleased : SoleMove 2 (storeAsked.step.openGate "slow")
      (storeAsked.step.openGate "slow").step := ⟨.step _, Or.inl rfl⟩
  have hlast : SoleMove 2 (storeAsked.step.openGate "slow").step storeFailed :=
    ⟨.step _, Or.inr ⟨rfl, [], rfl⟩⟩
  exact (((Relation.ReflTransGen.single hwaits).tail hopened).tail hreleased).tail hlast

/-- Settings that allow for no hits. -/
def hitless : Settings :=
  { settingsFor .elasticsearch with maxHits := 0 }

/-- An empty cache, whose clients all open and close. -/
def idle : ClientCache :=
  start (fun _ => none) fun _ => ⟨none, none⟩

theorem reachable_idle : idle.Reachable :=
  ⟨_, _, .refl⟩

/-- The cache after somebody tried to set up a span store with such settings. -/
def misconfigured : ClientCache :=
  (idle.spawn "store" (.createStore hitless false)).step

theorem soleRun_misconfigured :
    SoleRun 0 (idle.spawn "store" (.createStore hitless false)) misconfigured :=
  .single ⟨.step _, Or.inr ⟨rfl, [], rfl⟩⟩

/-- Whoever cannot make a client leaves the cache as it was, and whoever makes one for settings that
are refused leaves it there. -/
theorem unchanged_or_leftover_storeFailed :
    (storeFailed.task 2).state = .ended (.error (.raised "ValueError" "no certificate")) ∧
      contested.entries = [("elasticsearch:localhost:9200:elastic", 1)] ∧
      storeFailed.entries = contested.entries ∧
      ∃ client, Leftover idle misconfigured hitless client := by
  have hfailed : (storeFailed.task contested.tasks.size).state =
      .ended (.error (.raised "ValueError" "no certificate")) := rfl
  refine ⟨hfailed, rfl, ?_, ?_⟩
  · rcases (unchanged_or_leftover reachable_contested soleRun_storeFailed hfailed).1 with
      hsame | ⟨-, ⟨issues, -, hissues⟩, -⟩
    · exact hsame
    · cases hissues
  · have hrefused : (misconfigured.task idle.tasks.size).state =
        .ended (.error (.invalidConfig [⟨[.member "max_hits"], .notAbove 0⟩])) := rfl
    have hopens : ∀ attempt, idle.openings attempt ≠
        some (.invalidConfig [⟨[.member "max_hits"], .notAbove 0⟩]) := by
      intro attempt hopening
      cases hopening
    exact (unchanged_or_leftover reachable_idle soleRun_misconfigured hrefused).2 rfl rfl hopens
      ⟨_, rfl⟩

/-- **A failure may leave a client in the cache**, which was empty before. -/
theorem entries_misconfigured :
    idle.Reachable ∧
      SoleRun 0 (idle.spawn "store" (.createStore hitless false)) misconfigured ∧
      (misconfigured.task 0).state =
        .ended (.error (.invalidConfig [⟨[.member "max_hits"], .notAbove 0⟩])) ∧
      idle.entries = [] ∧
      misconfigured.entries = [("elasticsearch:localhost:9200:elastic", 1)] :=
  ⟨reachable_idle, soleRun_misconfigured, rfl, rfl, rfl⟩

end ClientCache
end TraceArchive
