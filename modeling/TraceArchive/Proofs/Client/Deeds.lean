import TraceArchive.Proofs.Client.Handing

/-!
# What a turn does with clients

A turn of a task is a chain of deeds: it makes a client for a key that is not cached, hands out a
cached one, closes one, or waits for one to close.  At its end it may empty the cache, and then it
has closed every client that was in there.

* `Quiet`: nothing is done with any client.
* `Deed`, `Deeds`, `Empties`, `Passage`: one deed, a chain of them, emptying the cache, and a whole
  turn.
* `Covered`: whoever waits for a client to close has closed the others or comes to them later.
* `Turn`, `passage_of_turn`: what can happen to the cache, and that it is such a turn.
-/

set_option autoImplicit false

namespace TraceArchive

/-- The settings that a task needs a client for. -/
def Job.asks? : Job → Option Settings
  | .get settings => some settings
  | .createStore settings _ => some settings
  | .close => none

/-- An observation that no client was made, closed or handed out in. -/
def CacheObservation.isAside : CacheObservation → Bool
  | .created _ _ => false
  | .closed _ => false
  | .ended _ (.ok value) => value.client?.isNone
  | _ => true

namespace ClientCache

/-! ### Deeds -/

/-- Nothing is done with any client, and nobody starts to wait for one to close. -/
structure Quiet (cache after : ClientCache) : Prop where
  entries : after.entries = cache.entries
  clients : after.clients = cache.clients
  journal : ∃ asides, after.journal = asides ++ cache.journal ∧
    ∀ entry ∈ asides, entry.isAside = true
  pass : ∀ id pass, (after.task id).pass? = some pass → (cache.task id).pass? = some pass
  jobs : KeepsJobs cache after

theorem Quiet.trans
    {cache middle after : ClientCache}
    (h : Quiet cache middle)
    (h' : Quiet middle after) :
    Quiet cache after := by
  obtain ⟨asides, hjournal, hasides⟩ := h.journal
  obtain ⟨asides', hjournal', hasides'⟩ := h'.journal
  refine ⟨h'.entries.trans h.entries, h'.clients.trans h.clients, ⟨asides' ++ asides, ?_, ?_⟩,
    fun id pass hpass => h.pass id pass (h'.pass id pass hpass), h.jobs.trans h'.jobs⟩
  · rw [hjournal', hjournal, List.append_assoc]
  · exact List.forall_mem_append.mpr ⟨hasides', hasides⟩

theorem Spares.quiet
    {cache after : ClientCache}
    (h : Spares cache after) :
    Quiet cache after :=
  ⟨h.entries, h.clients, ⟨[], h.journal, List.forall_mem_nil _⟩,
    fun id _ hpass => (h.pass id).symm.trans hpass, h.jobs⟩

theorem Quiet.of_tasks_eq
    {cache after : ClientCache}
    (hentries : after.entries = cache.entries)
    (hclients : after.clients = cache.clients)
    (hjournal : after.journal = cache.journal)
    (htasks : after.tasks = cache.tasks) :
    Quiet cache after :=
  (Spares.of_tasks_eq hentries hclients hjournal htasks).quiet

theorem quiet_note
    (cache : ClientCache)
    {entry : CacheObservation}
    (haside : entry.isAside = true) :
    Quiet cache (cache.note entry) :=
  ⟨rfl, rfl, ⟨[entry], rfl, List.forall_mem_singleton.mpr haside⟩, fun _ _ hpass => hpass,
    .of_tasks_eq rfl⟩

theorem quiet_log (cache : ClientCache) (level : LogLevel) (text : String) :
    Quiet cache (cache.log level text) := by
  rcases log_eq_or cache level text with heq | heq
  · rw [heq]
    exact (Spares.refl cache).quiet
  · rw [heq]
    exact quiet_note cache rfl

theorem quiet_finish
    {cache : ClientCache}
    {id : TaskId}
    {outcome : CacheOutcome}
    (hrunning : (cache.task id).state = .running)
    (haside : (CacheObservation.ended id outcome).isAside = true) :
    Quiet cache (cache.finish id outcome) :=
  ⟨rfl, rfl, ⟨[.ended id outcome], rfl, List.forall_mem_singleton.mpr haside⟩,
    fun other _ hpass => (pass?_finish hrunning outcome other).symm.trans hpass,
    keepsJobs_finish cache id outcome⟩

/-- The clients of the cache are one that is waited for, some that come after it, and others that
were closed. -/
def Covers (cache : ClientCache) (client : ClientId) (rest : List (String × ClientId)) : Prop :=
  ∀ entry ∈ cache.entries, entry.2 = client ∨ entry ∈ rest ∨ .closed entry.2 ∈ cache.journal

/-- Whoever waits for a client to close has closed the others or comes to them later. -/
def Covered (cache : ClientCache) : Prop :=
  ∀ id client rest, (cache.task id).pass? = some (client, rest) → cache.Covers client rest

/-- The cache in which a task waits for a client to close before others. -/
def awaiting
    (cache : ClientCache)
    (id : TaskId)
    (gate : String)
    (client : ClientId)
    (rest : List (String × ClientId)) :
    ClientCache :=
  { cache with gates := cache.gates.wait id gate }.park id (.gate gate) (.closing client rest)

/-- What the running task does with clients.  Only a task that has the lock makes or closes any, so
that nobody else is in the middle of a closing then. -/
inductive Deed (cache : ClientCache) : ClientCache → Prop
  | quiet {after : ClientCache} (h : Quiet cache after) : Deed cache after
  | make {settings : Settings}
      (hnone : Entries.get? (Connection.ofSettings settings).key cache.entries = none)
      (halone : ∀ id, (cache.task id).pass? = none) :
      Deed cache ((cache.note (.created (cache.clients + 1) (.ofSettings settings))).enter
        (Connection.ofSettings settings).key)
  | hand {id : TaskId} {client : ClientId} {value : CacheValue} (settings : Settings)
      (hrunning : (cache.task id).state = .running)
      (hasks : (cache.task id).job.asks? = some settings)
      (hcached : Entries.get? (Connection.ofSettings settings).key cache.entries = some client)
      (hvalue : value.client? = some client) :
      Deed cache (cache.finish id (.ok value))
  | close (client : ClientId) : Deed cache (cache.note (.closed client))
  | wait {id : TaskId} {client : ClientId} {rest : List (String × ClientId)} (gate : String)
      (hrunning : (cache.task id).state = .running)
      (halone : ∀ other, (cache.task other).pass? = none)
      (hcovers : cache.Covers client rest) :
      Deed cache (cache.awaiting id gate client rest)

/-- Any number of deeds. -/
abbrev Deeds : ClientCache → ClientCache → Prop :=
  Relation.ReflTransGen Deed

/-- All clients of the cache were closed, and it is emptied. -/
structure Empties (cache after : ClientCache) : Prop where
  entries : after.entries = []
  clients : after.clients = cache.clients
  closed : ∀ entry ∈ cache.entries, .closed entry.2 ∈ cache.journal
  journal : ∃ entry, entry.isAside = true ∧ after.journal = entry :: cache.journal
  pass : ∀ id, (after.task id).pass? = none
  jobs : KeepsJobs cache after

/-- A turn: deeds, and the cache may be emptied at the end. -/
def Passage (cache after : ClientCache) : Prop :=
  ∃ middle, Deeds cache middle ∧ (after = middle ∨ Empties middle after)

theorem passage_of_deeds
    {cache after : ClientCache}
    (h : Deeds cache after) :
    Passage cache after :=
  ⟨after, h, Or.inl rfl⟩

theorem Quiet.passage
    {cache after : ClientCache}
    (h : Quiet cache after) :
    Passage cache after :=
  passage_of_deeds (.single (.quiet h))

theorem Quiet.trans_passage
    {cache middle after : ClientCache}
    (h : Quiet cache middle)
    (h' : Passage middle after) :
    Passage cache after := by
  obtain ⟨last, hdeeds, hend⟩ := h'
  exact ⟨last, hdeeds.head (Deed.quiet h), hend⟩

/-! ### Clients that are handed out -/

theorem task_log
    (cache : ClientCache)
    (level : LogLevel)
    (text : String)
    (id : TaskId) :
    (cache.log level text).task id = cache.task id := by
  rcases log_eq_or cache level text with heq | heq
  · rw [heq]
  · rw [heq]
    rfl

/-- A task sets up its span store with a client that it was given. -/
theorem quiet_finishStore
    {cache : ClientCache}
    {id : TaskId}
    (hrunning : (cache.task id).state = .running)
    (settings : Settings) :
    Quiet cache (cache.finishStore id settings none) := by
  have hfails : ∀ issues, Quiet cache (cache.finish id (.error (.invalidConfig issues))) :=
    fun issues => quiet_finish hrunning rfl
  unfold ClientCache.finishStore
  cases settings.storeConfig with
  | refused issues => exact hfails issues
  | ok config =>
      refine (quiet_log cache .info (readyLine config)).trans (quiet_finish ?_ rfl)
      rw [task_log]
      exact hrunning

/-- A task whose client is cached sets up its span store with it. -/
theorem deeds_finishStore
    {cache : ClientCache}
    {id : TaskId}
    {settings : Settings}
    {given : Bool}
    {client : ClientId}
    (hrunning : (cache.task id).state = .running)
    (hjob : (cache.task id).job = .createStore settings given)
    (hcached : Entries.get? (Connection.ofSettings settings).key cache.entries = some client) :
    Deeds cache (cache.finishStore id settings (some client)) := by
  unfold ClientCache.finishStore
  cases settings.storeConfig with
  | refused issues => exact .single (.quiet (quiet_finish hrunning rfl))
  | ok config =>
      dsimp only
      have hlogged := quiet_log cache .info (readyLine config)
      refine Relation.ReflTransGen.head (.quiet hlogged) (.single (.hand settings ?_ ?_ ?_ rfl))
      · rw [task_log]
        exact hrunning
      · rw [task_log, hjob]
        rfl
      · rw [hlogged.entries]
        exact hcached

/-- A task is handed the client that is cached for its settings. -/
theorem deeds_deliver
    {cache : ClientCache}
    {id : TaskId}
    {settings : Settings}
    {client : ClientId}
    (hrunning : (cache.task id).state = .running)
    (hasks : (cache.task id).job.asks? = some settings)
    (hcached : Entries.get? (Connection.ofSettings settings).key cache.entries = some client) :
    Deeds cache (cache.deliver id client) := by
  unfold ClientCache.deliver
  split
  · rename_i asked given hjob
    obtain rfl : asked = settings := by
      rw [hjob] at hasks
      exact Option.some.inj hasks
    exact deeds_finishStore hrunning hjob hcached
  · exact .single (.hand settings hrunning hasks hcached rfl)

/-- A task whose client is cached gives the lock back and is handed the client. -/
theorem Owned.deeds_deliver
    {cache : ClientCache}
    {id : TaskId}
    {settings : Settings}
    {client : ClientId}
    (h : Owned cache id)
    (hasks : (cache.task id).job.asks? = some settings)
    (hcached : Entries.get? (Connection.ofSettings settings).key cache.entries = some client) :
    Deeds cache (cache.release.deliver id client) := by
  have hspares := h.spares_release
  refine Relation.ReflTransGen.head (.quiet hspares.quiet)
    (ClientCache.deeds_deliver h.running_release ?_ (hspares.entries.symm ▸ hcached))
  rw [h.release.2]
  exact hasks

/-- A task that has the lock makes a client for its settings, unless that fails. -/
theorem Owned.deeds_getCreated
    {cache : ClientCache}
    {id : TaskId}
    {settings : Settings}
    (h : Owned cache id)
    (hasks : (cache.task id).job.asks? = some settings)
    (hnone : Entries.get? (Connection.ofSettings settings).key cache.entries = none) :
    Deeds cache (match cache.create (Connection.ofSettings settings) with
      | (.error failure, cache) => cache.release.finish id (.error failure)
      | (.ok client, cache) =>
          { cache with
            entries := Entries.put (Connection.ofSettings settings).key client
              cache.entries }.release.deliver id client) := by
  unfold ClientCache.create
  dsimp only
  cases cache.openings cache.attempts with
  | some failure =>
      have hattempted : Quiet cache { cache with attempts := cache.attempts + 1 } :=
        .of_tasks_eq rfl rfl rfl rfl
      have howned : Owned { cache with attempts := cache.attempts + 1 } id :=
        h.congr rfl rfl rfl rfl rfl
      have hfinish := quiet_finish howned.running_release
        (rfl : (CacheObservation.ended id (.error failure)).isAside = true)
      exact .single (.quiet ((hattempted.trans howned.spares_release.quiet).trans hfinish))
  | none =>
      have howned : Owned ((cache.note (.created (cache.clients + 1)
          (Connection.ofSettings settings))).enter (Connection.ofSettings settings).key) id :=
        h.congr rfl rfl rfl rfl rfl
      exact Relation.ReflTransGen.head (.make hnone h.alone)
        (howned.deeds_deliver hasks (Entries.get?_put_self _ _ _))

/-- A task that has the lock gets the client for its settings. -/
theorem Owned.deeds_getLocked
    {cache : ClientCache}
    {id : TaskId}
    {settings : Settings}
    (h : Owned cache id)
    (hasks : (cache.task id).job.asks? = some settings) :
    Deeds cache (cache.getLocked id settings) := by
  unfold ClientCache.getLocked
  dsimp only
  cases hcached : Entries.get? (Connection.ofSettings settings).key cache.entries with
  | some client => exact h.deeds_deliver hasks hcached
  | none =>
      generalize hline : "Creating " ++ (Connection.ofSettings settings).engine.name ++
        " client for " ++ (Connection.ofSettings settings).account.host = line
      have hlogged := quiet_log cache .info line
      refine Relation.ReflTransGen.head (.quiet hlogged) ((h.log .info line).deeds_getCreated ?_ ?_)
      · rw [(hlogged.jobs id (lt_size_of_state h.running (by simp))).2]
        exact hasks
      · rw [hlogged.entries]
        exact hcached

/-! ### Clients that are closed -/

/-- The clients of the cache are some that are to be closed now, and others that were closed. -/
def Leaves (cache : ClientCache) (clients : List (String × ClientId)) : Prop :=
  ∀ entry ∈ cache.entries, entry ∈ clients ∨ .closed entry.2 ∈ cache.journal

/-- A task that has the lock has closed all clients: the cache is emptied. -/
theorem Owned.empties
    {cache : ClientCache}
    {id : TaskId}
    (h : Owned cache id)
    (hclosed : ∀ entry ∈ cache.entries, .closed entry.2 ∈ cache.journal) :
    Empties cache ({ cache with entries := [] }.release.finish id (.ok .nothing)) := by
  have howned : Owned { cache with entries := [] } id := h.congr rfl rfl rfl rfl rfl
  have hspares := howned.spares_release
  have hpass := pass?_finish howned.running_release (.ok .nothing)
  refine ⟨hspares.entries, hspares.clients, hclosed, ⟨.ended id (.ok .nothing), rfl, ?_⟩, ?_, ?_⟩
  · exact congrArg (_ :: ·) hspares.journal
  · exact fun other => (hpass other).trans ((hspares.pass other).trans (howned.alone other))
  · exact hspares.jobs.trans (keepsJobs_finish _ id _)

/-- A task that has the lock fails to close a client. -/
theorem Owned.quiet_fail
    {cache : ClientCache}
    {id : TaskId}
    (h : Owned cache id)
    (failure : CacheFailure) :
    Quiet cache (cache.release.finish id (.error failure)) :=
  h.spares_release.quiet.trans (quiet_finish h.running_release rfl)

/-- A client is told to close. -/
theorem quiet_telling (cache : ClientCache) (key : String) (client : ClientId) :
    Quiet cache (cache.telling key client) :=
  (quiet_log cache .info ("Closing client " ++ key)).trans (quiet_note _ rfl)

theorem Quiet.leaves
    {cache after : ClientCache}
    {clients : List (String × ClientId)}
    (h : Quiet cache after)
    (hleaves : cache.Leaves clients) :
    after.Leaves clients := by
  obtain ⟨asides, hjournal, _⟩ := h.journal
  intro entry hentry
  rw [h.entries] at hentry
  rw [hjournal]
  exact (hleaves entry hentry).imp_right (List.mem_append_right asides)

/-- A task that has the lock closes clients of the cache, one after the other. -/
theorem Owned.passage_closeAll
    {id : TaskId}
    (clients : List (String × ClientId))
    {cache : ClientCache}
    (h : Owned cache id)
    (hleaves : cache.Leaves clients) :
    Passage cache (closeAll id clients cache) := by
  induction clients generalizing cache with
  | nil =>
      refine ⟨cache, .refl, Or.inr (h.empties fun entry hentry => ?_)⟩
      exact (hleaves entry hentry).resolve_left List.not_mem_nil
  | cons entry rest ih =>
      obtain ⟨key, client⟩ := entry
      have htelling := quiet_telling cache key client
      have howned : Owned (cache.telling key client) id :=
        (h.log .info _).congr rfl rfl rfl rfl rfl
      have hleft := htelling.leaves hleaves
      refine htelling.trans_passage ?_
      rw [closeAll]
      split
      · rename_i gate _
        refine passage_of_deeds (.single (.wait gate howned.running howned.alone ?_))
        intro entry hentry
        rcases hleft entry hentry with hmem | hclosed
        · rcases List.mem_cons.mp hmem with rfl | hrest
          · exact Or.inl rfl
          · exact Or.inr (Or.inl hrest)
        · exact Or.inr (Or.inr hclosed)
      · split
        · rename_i failure _
          exact (howned.quiet_fail failure).passage
        · have hclosed : Leaves ((cache.telling key client).note (.closed client)) rest := by
            intro entry hentry
            rcases hleft entry hentry with hmem | hclosed
            · rcases List.mem_cons.mp hmem with rfl | hrest
              · exact Or.inr List.mem_cons_self
              · exact Or.inl hrest
            · exact Or.inr (List.mem_cons_of_mem _ hclosed)
          have howned' : Owned ((cache.telling key client).note (.closed client)) id :=
            howned.congr rfl rfl rfl rfl rfl
          obtain ⟨last, hdeeds, hend⟩ := ih howned' hclosed
          exact ⟨last, hdeeds.head (.close client), hend⟩

/-- A client that a task waited for is closed, or fails to close. -/
theorem Owned.passage_closeRest
    {cache : ClientCache}
    {id : TaskId}
    {client : ClientId}
    {rest : List (String × ClientId)}
    (h : Owned cache id)
    (hcovers : cache.Covers client rest) :
    Passage cache (cache.closeRest id client rest) := by
  unfold ClientCache.closeRest
  split
  · rename_i failure _
    exact (h.quiet_fail failure).passage
  · have hleaves : Leaves (cache.note (.closed client)) rest := by
      intro entry hentry
      rcases hcovers entry hentry with rfl | hrest | hclosed
      · exact Or.inr List.mem_cons_self
      · exact Or.inl hrest
      · exact Or.inr (List.mem_cons_of_mem _ hclosed)
    have howned : Owned (cache.note (.closed client)) id := h.congr rfl rfl rfl rfl rfl
    obtain ⟨last, hdeeds, hend⟩ := howned.passage_closeAll rest hleaves
    exact ⟨last, hdeeds.head (.close client), hend⟩

/-! ### Turns -/

/-- A task that has the lock gets its client, or closes all of them. -/
theorem Owned.passage_withLock
    {cache : ClientCache}
    {id : TaskId}
    (h : Owned cache id) :
    Passage cache (cache.withLock id) := by
  unfold ClientCache.withLock
  split
  · rename_i settings hjob
    exact passage_of_deeds (h.deeds_getLocked (by rw [hjob]; rfl))
  · rename_i settings given hjob
    exact passage_of_deeds (h.deeds_getLocked (by rw [hjob]; rfl))
  · exact h.passage_closeAll cache.entries fun entry hentry => Or.inl hentry

/-- A running task takes the lock, or waits for it. -/
theorem Guarded.passage_acquire
    {cache : ClientCache}
    {id : TaskId}
    (h : Guarded cache)
    (hrunning : (cache.task id).state = .running) :
    Passage cache (cache.acquire id) := by
  unfold ClientCache.acquire
  split
  · rename_i hfree
    have howned := h.take_of_free hrunning hfree
    have htaken : Quiet cache { cache with held := true } := .of_tasks_eq rfl rfl rfl rfl
    exact htaken.trans_passage howned.passage_withLock
  · exact (spares_park hrunning).quiet.passage

theorem Guarded.passage_getClient
    {cache : ClientCache}
    {id : TaskId}
    {settings : Settings}
    (h : Guarded cache)
    (hrunning : (cache.task id).state = .running)
    (hasks : (cache.task id).job.asks? = some settings) :
    Passage cache (cache.getClient id settings) := by
  unfold ClientCache.getClient
  split
  · rename_i client hcached
    exact passage_of_deeds (deeds_deliver hrunning hasks hcached)
  · exact h.passage_acquire hrunning

/-- A running task starts. -/
theorem Guarded.passage_begin
    {cache : ClientCache}
    {id : TaskId}
    (h : Guarded cache)
    (hrunning : (cache.task id).state = .running) :
    Passage cache (cache.begin id) := by
  unfold ClientCache.begin
  split
  · rename_i settings hjob
    exact h.passage_getClient hrunning (by rw [hjob]; rfl)
  · rename_i settings given hjob
    split
    · rename_i level _
      have hfails : Quiet cache (cache.finish id (.error (.unknownLevel level))) :=
        quiet_finish hrunning rfl
      exact hfails.passage
    · rename_i logger _
      have hset : Quiet cache { cache with logger := logger } := .of_tasks_eq rfl rfl rfl rfl
      refine hset.trans_passage ?_
      dsimp only
      split
      · have hrunning' : (task { cache with logger := logger } id).state = .running := hrunning
        exact (quiet_finishStore hrunning' settings).passage
      · have hguarded : Guarded { cache with logger := logger } := h.congr rfl rfl rfl rfl rfl
        have hasks : (Job.createStore settings given).asks? = some settings := rfl
        exact hguarded.passage_getClient hrunning (hjob ▸ hasks)
  · exact h.passage_acquire hrunning

/-- A task goes on from where it was left. -/
theorem quiet_resume
    {cache : ClientCache}
    {id : TaskId}
    (hid : id < cache.tasks.size) :
    Quiet cache (cache.updateTask id fun task => { task with state := .running }) :=
  ⟨rfl, rfl, ⟨[], rfl, List.forall_mem_nil _⟩, fun _ _ => pass?_of_resume hid,
    keepsJobs_resume cache id⟩

/-- A task has what it waited for. -/
theorem Guarded.passage_proceed
    {cache : ClientCache}
    {id : TaskId}
    (h : Guarded cache)
    (hcovered : cache.Covered)
    (hid : id < cache.tasks.size)
    (hstate : (cache.task id).state = .ready .proceed) :
    Passage cache ((cache.updateTask id fun task => { task with state := .running }).proceed
      id) := by
  have hself : (cache.updateTask id fun task => { task with state := .running }).task id =
      { cache.task id with state := .running } := task_update_self hid _
  have hpaused : (cache.task id).isPaused = true := by rw [CacheTask.isPaused, hstate]
  have hpass := CacheTask.pass?_of_isPaused hpaused
  have hquiet := quiet_resume hid
  unfold ClientCache.proceed
  rw [hself]
  dsimp only
  cases hpoint : (cache.task id).point with
  | start =>
      have hresumed := h.resume hid hstate (Or.inl (by simp [hpoint]))
      exact hquiet.trans_passage (hresumed.passage_begin (congrArg CacheTask.state hself))
  | locking =>
      have hheld : Quiet (cache.updateTask id fun task => { task with state := .running })
          { cache.leaving id with held := true } := .of_tasks_eq rfl rfl rfl rfl
      exact (hquiet.trans hheld).trans_passage (h.owned_of_granted hstate hpoint).passage_withLock
  | closing client rest =>
      have hsome : (cache.task id).pass? = some (client, rest) := by rw [hpass, hpoint]
      have howned := h.owned_of_pass hstate (by simp [hsome])
      exact hquiet.trans_passage (howned.passage_closeRest (hcovered id client rest hsome))

/-- A task is interrupted where it waited. -/
theorem Guarded.quiet_interrupt
    {cache : ClientCache}
    {id : TaskId}
    (h : Guarded cache)
    (hid : id < cache.tasks.size)
    (hstate : (cache.task id).state = .ready .interrupt) :
    Quiet cache ((cache.updateTask id fun task => { task with state := .running }).interrupt
      id) := by
  have hself : (cache.updateTask id fun task => { task with state := .running }).task id =
      { cache.task id with state := .running } := task_update_self hid _
  have hpaused : (cache.task id).isPaused = true := by rw [CacheTask.isPaused, hstate]
  have hpass := CacheTask.pass?_of_isPaused hpaused
  have hquiet := quiet_resume hid
  unfold ClientCache.interrupt
  rw [hself]
  dsimp only
  cases hpoint : (cache.task id).point with
  | start =>
      exact hquiet.trans (quiet_finish (congrArg CacheTask.state hself) rfl)
  | locking =>
      obtain ⟨hleaving, hrunning⟩ := h.leaving hid hstate
      have hleft : Quiet cache (cache.leaving id) := hquiet.trans (.of_tasks_eq rfl rfl rfl rfl)
      change Quiet cache (ClientCache.finish (if (cache.leaving id).held then cache.leaving id
        else (cache.leaving id).wakeFirst) id (.error .interrupted))
      split
      · exact hleft.trans (quiet_finish hrunning rfl)
      · refine (hleft.trans hleaving.spares_wakeFirst.quiet).trans (quiet_finish ?_ rfl)
        rw [hleaving.running_wakeFirst hrunning]
        exact hrunning
  | closing client rest =>
      have hsome : (cache.task id).pass? = some (client, rest) := by rw [hpass, hpoint]
      have howned := h.owned_of_pass hstate (by simp [hsome])
      exact hquiet.trans (howned.quiet_fail .interrupted)

theorem Guarded.passage_wake
    {cache : ClientCache}
    {id : TaskId}
    (h : Guarded cache)
    (hcovered : cache.Covered)
    (hid : id < cache.tasks.size) :
    Passage cache (cache.wake id) := by
  have hself : (cache.updateTask id fun task => { task with state := .running }).task id =
      { cache.task id with state := .running } := task_update_self hid _
  have hrunning := congrArg CacheTask.state hself
  have hquiet := quiet_resume hid
  unfold ClientCache.wake
  dsimp only
  split
  · rename_i hstate
    have hresumed := h.resume hid hstate (Or.inr (by rw [CacheTask.isPaused, hstate]))
    exact hquiet.trans_passage (hresumed.passage_begin hrunning)
  · rename_i hstate
    exact h.passage_proceed hcovered hid hstate
  · rename_i hstate
    exact (h.quiet_interrupt hid hstate).passage
  · exact (hquiet.trans (quiet_finish hrunning rfl)).passage
  · exact (Spares.refl cache).quiet.passage

theorem Guarded.passage_step
    {cache : ClientCache}
    (h : Guarded cache)
    (hcovered : cache.Covered) :
    Passage cache cache.step := by
  unfold ClientCache.step
  split
  · exact (Spares.refl cache).quiet.passage
  · rename_i id rest hready
    obtain ⟨hpopped, hid⟩ := h.pop hready
    have hquiet : Quiet cache { cache with ready := rest } := .of_tasks_eq rfl rfl rfl rfl
    exact hquiet.trans_passage (hpopped.passage_wake hcovered hid)

/-- What can happen among those who share the clients of the cache: nobody makes a client for
himself.  How a client closes may be different each time. -/
inductive Turn : ClientCache → ClientCache → Prop
  | step (cache : ClientCache) : Turn cache cache.step
  | spawn (cache : ClientCache) (name : String) (job : Job) : Turn cache (cache.spawn name job)
  | cancelTask (cache : ClientCache) (task : TaskId) (htask : task < cache.tasks.size) :
      Turn cache (cache.cancelTask task).2
  | openGate (cache : ClientCache) (gate : String) : Turn cache (cache.openGate gate)
  | vary (cache : ClientCache) (closings : ClientId → Closing) :
      Turn cache { cache with closings := closings }

theorem sound_of_turn
    {cache after : ClientCache}
    (h : Sound cache)
    (hturn : Turn cache after) :
    Sound after := by
  cases hturn with
  | step => exact sound_of_move h (Move.step cache)
  | spawn name job => exact sound_of_move h (Move.spawn cache name job)
  | cancelTask task htask => exact sound_of_move h (Move.cancelTask cache task htask)
  | openGate gate => exact sound_of_move h (Move.openGate cache gate)
  | vary closings =>
      exact h.congr (h.toGuarded.congr rfl rfl rfl rfl rfl) (.of_tasks_eq rfl rfl rfl rfl)

/-- Whatever happens among those who share the clients is a turn of one of them, or nothing is done
with any client. -/
theorem passage_of_turn
    {cache after : ClientCache}
    (h : Guarded cache)
    (hcovered : cache.Covered)
    (hturn : Turn cache after) :
    Passage cache after := by
  cases hturn with
  | step => exact h.passage_step hcovered
  | spawn name job => exact (h.spawn name job).2.quiet.passage
  | cancelTask task htask => exact (h.cancelTask htask).2.quiet.passage
  | openGate gate => exact (h.openGate gate).2.quiet.passage
  | vary closings =>
      have hvaried : Quiet cache { cache with closings := closings } :=
        .of_tasks_eq rfl rfl rfl rfl
      exact hvaried.passage

/-- Every move is such a turn, or somebody makes a client for himself. -/
theorem turn_or_create_of_move
    {cache after : ClientCache}
    (hmove : Move cache after) :
    Turn cache after ∨ ∃ connection, after = (cache.create connection).2 := by
  cases hmove with
  | step => exact Or.inl (Turn.step cache)
  | spawn name job => exact Or.inl (Turn.spawn cache name job)
  | create connection => exact Or.inr ⟨connection, rfl⟩
  | cancelTask task htask => exact Or.inl (Turn.cancelTask cache task htask)
  | openGate gate => exact Or.inl (Turn.openGate cache gate)

/-- Whoever makes a client for himself fails, or has a client with a new number. -/
theorem create_eq_or (cache : ClientCache) (connection : Connection) :
    (cache.create connection).2 = { cache with attempts := cache.attempts + 1 } ∨
      (cache.create connection).2 =
        { cache with attempts := cache.attempts + 1, clients := cache.clients + 1 }.note
          (.created (cache.clients + 1) connection) := by
  unfold ClientCache.create
  dsimp only
  split
  · exact Or.inl rfl
  · exact Or.inr rfl

/-! ### Closing in turns -/

theorem Covered.deed
    {cache after : ClientCache}
    (hcovered : cache.Covered)
    (hdeed : Deed cache after) :
    after.Covered := by
  intro id client rest hpass
  cases hdeed with
  | quiet h =>
      obtain ⟨asides, hjournal, _⟩ := h.journal
      intro entry hentry
      rw [h.entries] at hentry
      rw [hjournal]
      refine (hcovered id client rest (h.pass id _ hpass) entry hentry).imp_right ?_
      exact Or.imp_right (List.mem_append_right asides)
  | make hnone halone => cases (halone id).symm.trans hpass
  | hand settings hrunning hasks hcached hvalue =>
      intro entry hentry
      have hbefore := (pass?_finish hrunning _ id).symm.trans hpass
      refine (hcovered id client rest hbefore entry hentry).imp_right ?_
      exact Or.imp_right (List.mem_cons_of_mem _)
  | close closed =>
      intro entry hentry
      refine (hcovered id client rest hpass entry hentry).imp_right ?_
      exact Or.imp_right (List.mem_cons_of_mem _)
  | @wait other waited later gate hrunning halone hcovers =>
      by_cases hsame : id = other
      · subst hsame
        have hself : (cache.awaiting id gate waited later).task id =
            { cache.task id with state := .waiting (.gate gate), point := .closing waited later } :=
          task_update_self (lt_size_of_state hrunning (by simp)) _
        rw [hself] at hpass
        cases hpass
        exact hcovers
      · have hother : (cache.awaiting other gate waited later).task id = cache.task id :=
          task_update_of_ne hsame _
        rw [hother, halone] at hpass
        cases hpass

theorem Covered.passage
    {cache after : ClientCache}
    (hcovered : cache.Covered)
    (hpassage : Passage cache after) :
    after.Covered := by
  obtain ⟨middle, hdeeds, rfl | hempties⟩ := hpassage
  · induction hdeeds with
    | refl => exact hcovered
    | tail _ hlast ih => exact ih.deed hlast
  · intro id client rest hpass
    cases (hempties.pass id).symm.trans hpass

theorem covered_start
    (openings : Nat → Option CacheFailure)
    (closings : ClientId → Closing) :
    (start openings closings).Covered := by
  intro id client rest hpass
  rw [task_start] at hpass
  cases hpass

/-- Whoever makes a client for himself does not disturb those who close clients. -/
theorem Covered.create
    {cache : ClientCache}
    (hcovered : cache.Covered)
    (connection : Connection) :
    (cache.create connection).2.Covered := by
  rcases create_eq_or cache connection with heq | heq
  · rw [heq]
    exact hcovered
  · rw [heq]
    intro id client rest hpass entry hentry
    refine (hcovered id client rest hpass entry hentry).imp_right ?_
    exact Or.imp_right (List.mem_cons_of_mem _)

end ClientCache
end TraceArchive
