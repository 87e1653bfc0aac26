import TraceArchive.Proofs.Client.Deeds

/-!
# What a turn leaves alone

In its turn a task changes its own record, and may grant the lock to the first one in the queue.
How clients will open stays as it is, and what was observed stays observed.

* `CacheTask.Stays`: nothing happened to a task, unless it was told to go on.
* `Lasts`, `lasts_of_move`: what no move changes.
* `Acts`, `acts_step`: what a turn of one task leaves alone.
* `stays_of_move`: nobody else ends a task, or takes it to another point.
-/

set_option autoImplicit false

namespace TraceArchive

/-- Nothing happened to a task, unless it was told to go on: it has the same job, has come as far,
and has ended just when it had ended before. -/
structure CacheTask.Stays (task after : CacheTask) : Prop where
  job : after.job = task.job
  point : after.point = task.point
  ended : ∀ outcome, after.state = .ended outcome ↔ task.state = .ended outcome

theorem CacheTask.Stays.refl (task : CacheTask) : task.Stays task :=
  ⟨rfl, rfl, fun _ => Iff.rfl⟩

/-- A task that has not ended is told to go on. -/
theorem CacheTask.stays_roused
    {task : CacheTask}
    (h : task.state.isEnded = false)
    (signal : Signal) :
    task.Stays { task with state := .ready signal } := by
  refine ⟨rfl, rfl, fun outcome => ⟨fun hready => ?_, fun hended => ?_⟩⟩
  · cases hready
  · rw [hended] at h
    cases h

namespace ClientCache

/-! ### The turn of one task -/

/-- What never changes: how clients will open, what was observed, and which jobs there are. -/
structure Lasts (cache after : ClientCache) : Prop where
  openings : after.openings = cache.openings
  journal : ∃ news, after.journal = news ++ cache.journal
  jobs : KeepsJobs cache after

/-- What a turn of one task leaves alone.  Of the other tasks only one that waits for the lock may
have been granted it. -/
structure Acts (id : TaskId) (cache after : ClientCache) : Prop extends Lasts cache after where
  queue : ∀ other ≠ id, (other, .waiting) ∈ after.queue → (other, .waiting) ∈ cache.queue
  tasks : ∀ other ≠ id, after.task other = cache.task other ∨
    (other, .waiting) ∈ cache.queue ∧
      after.task other = { cache.task other with state := .ready .proceed }

section Acts

variable {cache middle after : ClientCache} {id : TaskId}

theorem Acts.of_tasks_eq
    (hopenings : after.openings = cache.openings)
    (hjournal : ∃ news, after.journal = news ++ cache.journal)
    (hqueue : ∀ other ≠ id, (other, .waiting) ∈ after.queue → (other, .waiting) ∈ cache.queue)
    (htasks : after.tasks = cache.tasks) :
    Acts id cache after :=
  ⟨⟨hopenings, hjournal, .of_tasks_eq htasks⟩, hqueue,
    fun other _ => Or.inl (task_congr htasks other)⟩

/-- Whatever is neither logged nor about tasks may change. -/
theorem Acts.of_same
    (hopenings : after.openings = cache.openings)
    (hjournal : after.journal = cache.journal)
    (hqueue : after.queue = cache.queue)
    (htasks : after.tasks = cache.tasks) :
    Acts id cache after :=
  .of_tasks_eq hopenings ⟨[], hjournal⟩ (fun _ _ hmem => hqueue ▸ hmem) htasks

theorem Lasts.refl (cache : ClientCache) : Lasts cache cache :=
  ⟨rfl, ⟨[], rfl⟩, .of_tasks_eq rfl⟩

theorem Lasts.trans
    (h : Lasts cache middle)
    (h' : Lasts middle after) :
    Lasts cache after := by
  obtain ⟨news, hjournal⟩ := h.journal
  obtain ⟨later, hjournal'⟩ := h'.journal
  refine ⟨h'.openings.trans h.openings, ⟨later ++ news, ?_⟩, h.jobs.trans h'.jobs⟩
  rw [hjournal', hjournal, List.append_assoc]

theorem Acts.trans
    (h : Acts id cache middle)
    (h' : Acts id middle after) :
    Acts id cache after := by
  refine ⟨h.toLasts.trans h'.toLasts,
    fun other hne hmem => h.queue other hne (h'.queue other hne hmem), fun other hne => ?_⟩
  · rcases h'.tasks other hne with hsame | ⟨hwaiting, hroused⟩
    · rw [hsame]
      exact h.tasks other hne
    · refine Or.inr ⟨h.queue other hne hwaiting, hroused.trans ?_⟩
      rcases h.tasks other hne with hsame | ⟨_, hearlier⟩
      · rw [hsame]
      · rw [hearlier]

theorem acts_note (cache : ClientCache) (entry : CacheObservation) :
    Acts id cache (cache.note entry) :=
  .of_tasks_eq rfl ⟨[entry], rfl⟩ (fun _ _ hmem => hmem) rfl

theorem acts_log (cache : ClientCache) (level : LogLevel) (text : String) :
    Acts id cache (cache.log level text) := by
  rcases log_eq_or cache level text with heq | heq
  · rw [heq]
    exact .of_same rfl rfl rfl rfl
  · rw [heq]
    exact acts_note cache _

/-- A task changes its own record. -/
theorem acts_updateTask
    (cache : ClientCache)
    {change : CacheTask → CacheTask}
    (hjob : ∀ task, (change task).job = task.job) :
    Acts id cache (cache.updateTask id change) :=
  ⟨⟨rfl, ⟨[], rfl⟩, keepsJobs_updateTask cache id hjob⟩, fun _ _ hmem => hmem,
    fun _ hne => Or.inl (task_update_of_ne hne change)⟩

theorem acts_finish (cache : ClientCache) (outcome : CacheOutcome) :
    Acts id cache (cache.finish id outcome) := by
  have hjob : ∀ task : CacheTask, { task with state := .ended outcome }.job = task.job :=
    fun _ => rfl
  exact (acts_updateTask cache hjob).trans (acts_note _ _)

theorem acts_park (cache : ClientCache) (place : Place) (point : Progression) :
    Acts id cache (cache.park id place point) := by
  have hjob : ∀ task : CacheTask,
      { task with state := .waiting place, point := point }.job = task.job := fun _ => rfl
  exact acts_updateTask cache hjob

theorem task_rouse
    (cache : ClientCache)
    (id : TaskId)
    (signal : Signal)
    (other : TaskId) :
    (cache.rouse id signal).task other = cache.task other ∨
      other = id ∧
        (cache.rouse id signal).task other = { cache.task other with state := .ready signal } := by
  have hroused : (cache.rouse id signal).task other =
      (cache.updateTask id fun task => { task with state := .ready signal }).task other := rfl
  rw [hroused]
  by_cases hsame : other = id
  · subst hsame
    by_cases hid : other < cache.tasks.size
    · exact Or.inr ⟨rfl, task_update_self hid _⟩
    · refine Or.inl ?_
      simp [task, ClientCache.updateTask, Array.getD_eq_getD_getElem?, hid]
  · exact Or.inl (task_update_of_ne hsame _)

/-- The lock is granted to the first task in the queue. -/
theorem acts_wakeFirst (cache : ClientCache) : Acts id cache cache.wakeFirst := by
  unfold ClientCache.wakeFirst
  split
  · rename_i first rest hqueue
    have hjob : ∀ task : CacheTask, { task with state := .ready .proceed }.job = task.job :=
      fun _ => rfl
    refine ⟨⟨rfl, ⟨[], rfl⟩, keepsJobs_updateTask _ first hjob⟩, fun other _ hmem => ?_,
      fun other _ => ?_⟩
    · rcases List.mem_cons.mp hmem with heq | hrest
      · cases heq
      · exact hqueue ▸ List.mem_cons_of_mem _ hrest
    · rcases task_rouse { cache with queue := (first, .granted) :: rest } first .proceed other with
        hsame | ⟨rfl, hroused⟩
      · exact Or.inl hsame
      · exact Or.inr ⟨hqueue ▸ List.mem_cons_self, hroused⟩
  · exact .of_same rfl rfl rfl rfl

theorem acts_release (cache : ClientCache) : Acts id cache cache.release := by
  have hfreed : Acts id cache { cache with held := false } := .of_same rfl rfl rfl rfl
  exact hfreed.trans (acts_wakeFirst _)

theorem acts_leaveQueue (cache : ClientCache) : Acts id cache (cache.leaveQueue id) :=
  .of_tasks_eq rfl ⟨[], rfl⟩ (fun _ _ hmem => (List.mem_filter.mp hmem).1) rfl

/-- A task gives the lock back and has failed. -/
theorem acts_giveUp (cache : ClientCache) (failure : CacheFailure) :
    Acts id cache (cache.release.finish id (.error failure)) :=
  (acts_release cache).trans (acts_finish _ _)

theorem acts_finishStore
    (cache : ClientCache)
    (settings : Settings)
    (client : Option ClientId) :
    Acts id cache (cache.finishStore id settings client) := by
  unfold ClientCache.finishStore
  split
  · exact acts_finish cache _
  · exact (acts_log cache _ _).trans (acts_finish _ _)

theorem acts_deliver (cache : ClientCache) (client : ClientId) :
    Acts id cache (cache.deliver id client) := by
  unfold ClientCache.deliver
  split
  · exact acts_finishStore cache _ _
  · exact acts_finish cache _

theorem acts_getLocked (cache : ClientCache) (settings : Settings) :
    Acts id cache (cache.getLocked id settings) := by
  unfold ClientCache.getLocked
  dsimp only
  split
  · exact (acts_release cache).trans (acts_deliver _ _)
  · generalize hline : "Creating " ++ (Connection.ofSettings settings).engine.name ++
      " client for " ++ (Connection.ofSettings settings).account.host = line
    refine (acts_log cache .info line).trans ?_
    generalize cache.log .info line = announced
    unfold ClientCache.create
    dsimp only
    cases announced.openings announced.attempts with
    | some failure =>
        have hattempted : Acts id announced { announced with attempts := announced.attempts + 1 } :=
          .of_same rfl rfl rfl rfl
        exact hattempted.trans (acts_giveUp _ failure)
    | none =>
        have hmade : Acts id announced ((announced.note (.created (announced.clients + 1)
            (.ofSettings settings))).enter (Connection.ofSettings settings).key) :=
          (acts_note announced _).trans (.of_same rfl rfl rfl rfl)
        exact hmade.trans ((acts_release _).trans (acts_deliver _ _))

/-- A task tells clients to close, one after the other. -/
theorem acts_closeAll
    (clients : List (String × ClientId))
    (cache : ClientCache) :
    Acts id cache (closeAll id clients cache) := by
  induction clients generalizing cache with
  | nil =>
      have hemptied : Acts id cache { cache with entries := [] } := .of_same rfl rfl rfl rfl
      exact (hemptied.trans (acts_release _)).trans (acts_finish _ _)
  | cons entry rest ih =>
      obtain ⟨key, client⟩ := entry
      have htelling : Acts id cache (cache.telling key client) :=
        (acts_log cache .info _).trans (acts_note _ _)
      refine htelling.trans ?_
      rw [closeAll]
      split
      · rename_i gate _
        have hwaits : ∀ cache : ClientCache,
            Acts id cache { cache with gates := cache.gates.wait id gate } :=
          fun _ => .of_same rfl rfl rfl rfl
        exact (hwaits _).trans (acts_park _ _ _)
      · split
        · exact acts_giveUp _ _
        · exact (acts_note _ _).trans (ih _)

theorem acts_closeRest
    (cache : ClientCache)
    (client : ClientId)
    (rest : List (String × ClientId)) :
    Acts id cache (cache.closeRest id client rest) := by
  unfold ClientCache.closeRest
  split
  · exact acts_giveUp cache _
  · exact (acts_note cache _).trans (acts_closeAll rest _)

theorem acts_withLock (cache : ClientCache) : Acts id cache (cache.withLock id) := by
  unfold ClientCache.withLock
  split
  · exact acts_getLocked cache _
  · exact acts_getLocked cache _
  · exact acts_closeAll _ cache

/-- A task takes the lock. -/
theorem acts_take (cache : ClientCache) :
    Acts id cache ({ cache with held := true }.withLock id) := by
  have hheld : Acts id cache { cache with held := true } := .of_same rfl rfl rfl rfl
  exact hheld.trans (acts_withLock _)

theorem acts_acquire (cache : ClientCache) : Acts id cache (cache.acquire id) := by
  unfold ClientCache.acquire
  split
  · exact acts_take cache
  · have hqueued :
        Acts id cache { cache with queue := cache.queue ++ [(id, Ticket.waiting)] } := by
      refine .of_tasks_eq rfl ⟨[], rfl⟩ (fun other hne hmem => ?_) rfl
      rcases List.mem_append.mp hmem with hold | hnew
      · exact hold
      · exact absurd (Prod.mk.inj (List.mem_singleton.mp hnew)).1 hne
    exact hqueued.trans (acts_park _ _ _)

theorem acts_getClient (cache : ClientCache) (settings : Settings) :
    Acts id cache (cache.getClient id settings) := by
  unfold ClientCache.getClient
  split
  · exact acts_deliver cache _
  · exact acts_acquire cache

theorem acts_begin (cache : ClientCache) : Acts id cache (cache.begin id) := by
  unfold ClientCache.begin
  split
  · exact acts_getClient cache _
  · split
    · exact acts_finish cache _
    · rename_i logger _
      have hset : Acts id cache { cache with logger := logger } := .of_same rfl rfl rfl rfl
      refine hset.trans ?_
      dsimp only
      split
      · exact acts_finishStore _ _ _
      · exact acts_getClient _ _
  · exact acts_acquire cache

theorem acts_proceed (cache : ClientCache) : Acts id cache (cache.proceed id) := by
  unfold ClientCache.proceed
  split
  · exact acts_begin cache
  · exact (acts_leaveQueue cache).trans (acts_take _)
  · exact acts_closeRest cache _ _

theorem acts_interrupt (cache : ClientCache) : Acts id cache (cache.interrupt id) := by
  unfold ClientCache.interrupt
  dsimp only
  refine Acts.trans ?_ (acts_finish _ _)
  split
  · exact .of_same rfl rfl rfl rfl
  · split
    · exact acts_leaveQueue cache
    · exact (acts_leaveQueue cache).trans (acts_wakeFirst _)
  · exact acts_release cache

theorem acts_wake (cache : ClientCache) : Acts id cache (cache.wake id) := by
  have hjob : ∀ task : CacheTask, { task with state := .running }.job = task.job := fun _ => rfl
  have hrunning : Acts id cache (cache.updateTask id fun task => { task with state := .running }) :=
    acts_updateTask cache hjob
  unfold ClientCache.wake
  dsimp only
  split
  · exact hrunning.trans (acts_begin _)
  · exact hrunning.trans (acts_proceed _)
  · exact hrunning.trans (acts_interrupt _)
  · exact hrunning.trans (acts_finish _ _)
  · exact .of_same rfl rfl rfl rfl

/-- The first task that is ready takes its turn. -/
theorem acts_step
    {rest : List TaskId}
    (hready : cache.ready = id :: rest) :
    Acts id cache cache.step := by
  unfold ClientCache.step
  rw [hready]
  have hpopped : Acts id cache { cache with ready := rest } := .of_same rfl rfl rfl rfl
  exact hpopped.trans (acts_wake _)

/-- A task is told to go on in the turn of another one only if it waited for the lock. -/
theorem Acts.stays
    {other : TaskId}
    (h : Acts id cache after)
    (hguarded : Guarded cache)
    (hne : other ≠ id) :
    (cache.task other).Stays (after.task other) := by
  rcases h.tasks other hne with hsame | ⟨hwaiting, hroused⟩
  · rw [hsame]
    exact .refl _
  · have hstate : (cache.task other).state = .waiting .lock := (hguarded.queued other _ hwaiting).2
    rw [hroused]
    exact CacheTask.stays_roused (by rw [hstate]; rfl) .proceed

end Acts

/-! ### Every move -/

section Moves

variable {cache after : ClientCache} {id : TaskId}

theorem task_foldl_rouse
    (woken : List TaskId)
    (cache : ClientCache)
    (id : TaskId) :
    (woken.foldl (fun cache other => cache.rouse other .proceed) cache).task id = cache.task id ∨
      id ∈ woken ∧ (woken.foldl (fun cache other => cache.rouse other .proceed) cache).task id =
        { cache.task id with state := .ready .proceed } := by
  induction woken generalizing cache with
  | nil => exact Or.inl rfl
  | cons first rest ih =>
      rw [List.foldl_cons]
      rcases ih (cache.rouse first .proceed) with hsame | ⟨hmem, hroused⟩
      · rw [hsame]
        rcases task_rouse cache first .proceed id with hkept | ⟨rfl, hfirst⟩
        · exact Or.inl hkept
        · exact Or.inr ⟨List.mem_cons_self, hfirst⟩
      · refine Or.inr ⟨List.mem_cons_of_mem first hmem, hroused.trans ?_⟩
        rcases task_rouse cache first .proceed id with hkept | ⟨_, hfirst⟩
        · rw [hkept]
        · rw [hfirst]

theorem openings_foldl_rouse (woken : List TaskId) (cache : ClientCache) :
    (woken.foldl (fun cache other => cache.rouse other .proceed) cache).openings =
      cache.openings := by
  induction woken generalizing cache with
  | nil => rfl
  | cons first rest ih => exact ih (cache.rouse first .proceed)

/-- A gate is opened for those who have not ended. -/
theorem Guarded.stays_openGate
    (h : Guarded cache)
    (gate : String) :
    (cache.task id).Stays ((cache.openGate gate).task id) := by
  rcases task_foldl_rouse (cache.gates.waitingAt gate)
    { cache with gates := cache.gates.openGate gate } id with hsame | ⟨hmem, hroused⟩
  · rw [show (cache.openGate gate).task id = cache.task id from hsame]
    exact .refl _
  · obtain ⟨⟨other, place⟩, hentry, rfl⟩ := List.mem_map.mp hmem
    have hstate := h.gated other place (List.mem_filter.mp hentry).1
    rw [show (cache.openGate gate).task other = _ from hroused]
    exact CacheTask.stays_roused (by rw [hstate]; rfl) .proceed

/-- A task that has ended cannot be canceled any more. -/
theorem stays_cancelTask (cache : ClientCache) (other : TaskId) :
    (cache.task id).Stays ((cache.cancelTask other).2.task id) := by
  have hroused : ∀ (cache : ClientCache) (signal : Signal),
      (cache.task other).state.isEnded = false →
        (cache.task id).Stays ((cache.rouse other signal).task id) := by
    intro cache signal hstate
    rcases task_rouse cache other signal id with hsame | ⟨rfl, hroused⟩
    · rw [hsame]
      exact .refl _
    · rw [hroused]
      exact CacheTask.stays_roused hstate signal
  unfold ClientCache.cancelTask
  cases hstate : (cache.task other).state with
  | ended outcome => exact .refl _
  | running => exact .refl _
  | ready signal =>
      have hready : (cache.task other).state.isEnded = false := by rw [hstate]; rfl
      cases signal with
      | start => exact hroused cache .abandon hready
      | abandon => exact .refl _
      | proceed => exact hroused cache .interrupt hready
      | interrupt => exact hroused cache .interrupt hready
  | waiting place =>
      have hwaiting : (cache.task other).state.isEnded = false := by rw [hstate]; rfl
      cases place with
      | lock => exact hroused (cache.withdraw other) .interrupt hwaiting
      | gate gate =>
          exact hroused { cache with gates := cache.gates.forget other } .interrupt hwaiting

/-- **Nobody else moves a task.**  Unless it is its own turn, a task has the same job and has come
as far after a move, and has ended just when it had ended before. -/
theorem stays_of_move
    (h : Guarded cache)
    (hid : id < cache.tasks.size)
    (hmove : Move cache after) :
    (cache.task id).Stays (after.task id) ∨
      ∃ rest, cache.ready = id :: rest ∧ after = cache.step := by
  cases hmove with
  | step =>
      cases hready : cache.ready with
      | nil =>
          have hidle : cache.step = cache := by rw [ClientCache.step, hready]
          rw [hidle]
          exact Or.inl (.refl _)
      | cons first rest =>
          by_cases hfirst : id = first
          · exact Or.inr ⟨rest, by rw [hfirst], rfl⟩
          · exact Or.inl ((acts_step hready).stays h hfirst)
  | spawn name job =>
      rw [task_spawn, if_neg (Nat.ne_of_lt hid)]
      exact Or.inl (.refl _)
  | create connection =>
      have htasks : (cache.create connection).2.tasks = cache.tasks := by
        rcases create_eq_or cache connection with heq | heq
        · rw [heq]
        · rw [heq]
          rfl
      rw [task_congr htasks]
      exact Or.inl (.refl _)
  | cancelTask other hother => exact Or.inl (stays_cancelTask cache other)
  | openGate gate => exact Or.inl (h.stays_openGate gate)

/-- How clients will open, what was observed and which jobs there are is the same after a move. -/
theorem lasts_of_move
    (h : Guarded cache)
    (hmove : Move cache after) :
    Lasts cache after := by
  cases hmove with
  | step =>
      cases hready : cache.ready with
      | nil =>
          have hidle : cache.step = cache := by rw [ClientCache.step, hready]
          rw [hidle]
          exact .refl cache
      | cons first rest => exact (acts_step hready).toLasts
  | spawn name job => exact ⟨rfl, ⟨[], rfl⟩, (h.spawn name job).2.jobs⟩
  | create connection =>
      rcases create_eq_or cache connection with heq | heq
      · rw [heq]
        exact ⟨rfl, ⟨[], rfl⟩, .of_tasks_eq rfl⟩
      · rw [heq]
        exact ⟨rfl, ⟨[_], rfl⟩, .of_tasks_eq rfl⟩
  | cancelTask other hother =>
      obtain ⟨-, hspares⟩ := h.cancelTask hother
      refine ⟨?_, ⟨[], hspares.journal⟩, hspares.jobs⟩
      unfold ClientCache.cancelTask
      split <;> rfl
  | openGate gate =>
      obtain ⟨-, hspares⟩ := h.openGate gate
      exact ⟨openings_foldl_rouse _ _, ⟨[], hspares.journal⟩, hspares.jobs⟩

end Moves

end ClientCache
end TraceArchive
