import TraceArchive.Proofs.Client.Lingering

/-!
# What a task does with the clients of the cache

A task that has the lock makes a client, or closes all of them; it may fail, or wait for a client to
close.  At the end of its turn the cache is as it should be.

* `Sound.finish`, `Sound.deliver`: a task ends, and may hand out a client.
* `Sound.getLocked`: a task that has the lock gets its client.
* `Owned.sound_closeAll`, `Owned.sound_closeRest`: a task that has the lock closes clients.
-/

set_option autoImplicit false

namespace TraceArchive
namespace ClientCache

/-- Nobody who ends while running was in the middle of a closing. -/
theorem pass?_finish
    {cache : ClientCache}
    {id : TaskId}
    (hrunning : (cache.task id).state = .running)
    (outcome : CacheOutcome)
    (other : TaskId) :
    ((cache.finish id outcome).task other).pass? = (cache.task other).pass? := by
  by_cases hsame : other = id
  · subst hsame
    have hself : (cache.finish other outcome).task other =
        { cache.task other with state := .ended outcome } :=
      task_update_self (lt_size_of_state hrunning (by simp)) _
    rw [hself, CacheTask.pass?_of_running hrunning]
    exact CacheTask.pass?_of_not_isPaused rfl
  · exact congrArg CacheTask.pass? (task_update_of_ne hsame _)

theorem Kept.finish
    {cache : ClientCache}
    {id : TaskId}
    {outcome : CacheOutcome}
    (h : Kept cache)
    (hrunning : (cache.task id).state = .running)
    (hempties : (CacheObservation.ended id outcome).empties = false)
    (hhanded : ∀ client, (CacheObservation.ended id outcome).handed? = some client →
      (.closing client ∈ cache.journal ↔ client ∈ lingering cache.journal)) :
    Kept (cache.finish id outcome) := by
  have hpass := pass?_finish hrunning outcome
  have hended : Kept (cache.updateTask id fun task => { task with state := .ended outcome }) := by
    refine h.congr rfl (Nat.le_refl _) rfl ?_ (keepsJobs_finish cache id outcome)
    exact fun other pass hother => hpass other ▸ hother
  exact hended.note hempties rfl hhanded

/-- A running task ends; it may hand out a client. -/
theorem Sound.finish
    {cache : ClientCache}
    {id : TaskId}
    {outcome : CacheOutcome}
    (h : Sound cache)
    (hrunning : (cache.task id).state = .running)
    (hempties : (CacheObservation.ended id outcome).empties = false)
    (hhanded : ∀ client, (CacheObservation.ended id outcome).handed? = some client →
      (.closing client ∈ cache.journal ↔ client ∈ lingering cache.journal)) :
    Sound (cache.finish id outcome) := by
  have hlingering : lingering (cache.finish id outcome).journal = lingering cache.journal :=
    lingering_cons hempties rfl
  refine ⟨h.toGuarded.finish hrunning outcome, h.toKept.finish hrunning hempties hhanded,
    fun hne => ?_⟩
  rw [hlingering] at hne
  rcases h.cause hne with ⟨other, hother⟩ | ⟨other, failure, hmem, hlt, hother⟩
  · exact Or.inl ⟨other, pass?_finish hrunning outcome other ▸ hother⟩
  · have hrecent : recent (cache.finish id outcome).journal =
        .ended id outcome :: recent cache.journal := recent_cons hempties
    obtain ⟨hlt', hjob⟩ := keepsJobs_finish cache id outcome other hlt
    refine Or.inr ⟨other, failure, ?_, hlt', hjob.trans hother⟩
    rw [hrecent]
    exact List.mem_cons_of_mem _ hmem

theorem Sound.fail
    {cache : ClientCache}
    {id : TaskId}
    (h : Sound cache)
    (hrunning : (cache.task id).state = .running)
    (failure : CacheFailure) :
    Sound (cache.finish id (.error failure)) := by
  refine h.finish hrunning rfl fun client hhanded => ?_
  cases hhanded

/-- Who is closing clients, and why clients are lingering, stays the same. -/
theorem Sound.congr
    {cache after : ClientCache}
    (h : Sound cache)
    (hguarded : Guarded after)
    (hspares : Spares cache after) :
    Sound after := by
  refine ⟨hguarded, h.toKept.congr hspares.entries (Nat.le_of_eq hspares.clients.symm)
    hspares.journal (fun id pass hsome => (hspares.pass id).symm.trans hsome) hspares.jobs, ?_⟩
  intro hne
  rw [hspares.journal] at hne
  rcases h.cause hne with ⟨id, hpassing⟩ | ⟨id, failure, hmem, hlt, hclose⟩
  · exact Or.inl ⟨id, (hspares.pass id).symm ▸ hpassing⟩
  · obtain ⟨hlt', hjob⟩ := hspares.jobs id hlt
    exact Or.inr ⟨id, failure, hspares.journal.symm ▸ hmem, hlt', hjob.trans hclose⟩

/-- Something else was observed. -/
theorem Sound.note
    {cache : ClientCache}
    {entry : CacheObservation}
    (h : Sound cache)
    (hempties : entry.empties = false)
    (htold : entry.told? = none)
    (hhanded : entry.handed? = none) :
    Sound (cache.note entry) := by
  have hkept : Kept (cache.note entry) := by
    refine h.toKept.note hempties htold fun client hclient => ?_
    rw [hhanded] at hclient
    cases hclient
  refine ⟨h.toGuarded.congr rfl rfl rfl rfl rfl, hkept, fun hne => ?_⟩
  rw [show lingering (cache.note entry).journal = _ from lingering_cons hempties htold] at hne
  rcases h.cause hne with hclosing | ⟨id, failure, hmem, hclose⟩
  · exact Or.inl hclosing
  · refine Or.inr ⟨id, failure, ?_, hclose⟩
    rw [show recent (cache.note entry).journal = _ from recent_cons hempties]
    exact List.mem_cons_of_mem _ hmem

theorem Sound.log
    {cache : ClientCache}
    (h : Sound cache)
    (level : LogLevel)
    (text : String) :
    Sound (cache.log level text) := by
  unfold ClientCache.log
  split
  · exact h.note rfl rfl rfl
  · exact h

/-- A line in the log changes neither the tasks nor which clients were told to close. -/
theorem log_eq_or (cache : ClientCache) (level : LogLevel) (text : String) :
    cache.log level text = cache ∨ cache.log level text = cache.note (.logged level text) := by
  unfold ClientCache.log
  split
  · exact Or.inr rfl
  · exact Or.inl rfl

/-- The lock is granted to the next task in the queue. -/
theorem Sound.wakeFirst
    {cache : ClientCache}
    (h : Sound cache)
    (hfree : cache.held = false) :
    Sound cache.wakeFirst :=
  h.congr (h.toGuarded.wakeFirst hfree) h.toGuarded.spares_wakeFirst

theorem Owned.spares_release
    {cache : ClientCache}
    {id : TaskId}
    (h : Owned cache id) :
    Spares cache cache.release := by
  have hfreed : Spares cache { cache with held := false } := .of_tasks_eq rfl rfl rfl rfl
  exact hfreed.trans h.freed.spares_wakeFirst

/-- The running task gives the lock back. -/
theorem Sound.release
    {cache : ClientCache}
    {id : TaskId}
    (h : Sound cache)
    (howned : Owned cache id) :
    Sound cache.release :=
  h.congr howned.release.1 howned.spares_release

theorem Owned.kept_release
    {cache : ClientCache}
    {id : TaskId}
    (howned : Owned cache id)
    (h : Kept cache) :
    Kept cache.release := by
  have hspares := howned.spares_release
  exact h.congr hspares.entries (Nat.le_of_eq hspares.clients.symm) hspares.journal
    (fun id pass hsome => (hspares.pass id).symm.trans hsome) hspares.jobs

/-- A span store is set up. -/
theorem Sound.finishStore
    {cache : ClientCache}
    {id : TaskId}
    {client : Option ClientId}
    (h : Sound cache)
    (hrunning : (cache.task id).state = .running)
    (settings : Settings)
    (hclient : ∀ given, client = some given →
      (.closing given ∈ cache.journal ↔ given ∈ lingering cache.journal)) :
    Sound (cache.finishStore id settings client) := by
  unfold ClientCache.finishStore
  cases settings.storeConfig with
  | refused issues =>
      exact h.fail hrunning _
  | ok config =>
      dsimp only
      have hlogged := h.log .info (readyLine config)
      rcases log_eq_or cache .info (readyLine config) with heq | heq
      · rw [heq]
        exact h.finish hrunning rfl hclient
      · rw [heq] at hlogged ⊢
        refine hlogged.finish hrunning rfl fun given hhanded => ?_
        have hlingering : lingering (cache.note (.logged .info (readyLine config))).journal =
            lingering cache.journal := lingering_cons rfl rfl
        rw [hlingering, ← hclient given hhanded]
        simp [ClientCache.note]

/-- A task is handed its client. -/
theorem Sound.deliver
    {cache : ClientCache}
    {id : TaskId}
    {client : ClientId}
    (h : Sound cache)
    (hrunning : (cache.task id).state = .running)
    (hclient : .closing client ∈ cache.journal ↔ client ∈ lingering cache.journal) :
    Sound (cache.deliver id client) := by
  have hhands : ∀ given, some client = some given →
      (.closing given ∈ cache.journal ↔ given ∈ lingering cache.journal) := by
    rintro given ⟨rfl⟩
    exact hclient
  unfold ClientCache.deliver
  split
  · exact h.finishStore hrunning _ hhands
  · exact h.finish hrunning rfl hhands

/-- A client of the cache was told to close, if at all, since the cache was last emptied. -/
theorem Kept.told_iff
    {cache : ClientCache}
    {key : String}
    {client : ClientId}
    (h : Kept cache)
    (hcached : Entries.get? key cache.entries = some client) :
    .closing client ∈ cache.journal ↔ client ∈ lingering cache.journal :=
  ⟨h.fresh _ (Entries.mem_of_get? hcached), told_of_lingering⟩

/-- A client that does not exist was not told to close. -/
theorem Kept.not_told
    {cache : ClientCache}
    {client : ClientId}
    (h : Kept cache)
    (hnew : cache.clients < client) :
    .closing client ∉ cache.journal :=
  fun htold => Nat.not_lt.mpr (h.told client htold) hnew

theorem Owned.log
    {cache : ClientCache}
    {id : TaskId}
    (h : Owned cache id)
    (level : LogLevel)
    (text : String) :
    Owned (cache.log level text) id := by
  rcases log_eq_or cache level text with heq | heq
  · rwa [heq]
  · rw [heq]
    exact h.congr rfl rfl rfl rfl rfl

/-- The cache with a new client under a key. -/
def enter (cache : ClientCache) (key : String) : ClientCache :=
  { cache with
    attempts := cache.attempts + 1
    clients := cache.clients + 1
    entries := Entries.put key (cache.clients + 1) cache.entries }

theorem Sound.enter
    {cache : ClientCache}
    {settings : Settings}
    (h : Sound cache)
    (hnone : Entries.get? (Connection.ofSettings settings).key cache.entries = none) :
    Sound (cache.enter (Connection.ofSettings settings).key) :=
  ⟨h.toGuarded.congr rfl rfl rfl rfl rfl, h.toKept.put hnone rfl rfl rfl rfl, h.cause⟩

/-- A task that has the lock makes a new client, unless that fails. -/
theorem Sound.getCreated
    {cache : ClientCache}
    {id : TaskId}
    {settings : Settings}
    (h : Sound cache)
    (howned : Owned cache id)
    (hnone : Entries.get? (Connection.ofSettings settings).key cache.entries = none) :
    Sound (match cache.create (Connection.ofSettings settings) with
      | (.error failure, cache) => cache.release.finish id (.error failure)
      | (.ok client, cache) =>
          { cache with
            entries := Entries.put (Connection.ofSettings settings).key client
              cache.entries }.release.deliver id client) := by
  unfold ClientCache.create
  dsimp only
  cases cache.openings cache.attempts with
  | some failure =>
      have hattempted : Sound { cache with attempts := cache.attempts + 1 } :=
        ⟨h.toGuarded.congr rfl rfl rfl rfl rfl, h.toKept.congr rfl (Nat.le_refl _) rfl
          (fun _ _ hpass => hpass) (.of_tasks_eq rfl), h.cause⟩
      have howned' : Owned { cache with attempts := cache.attempts + 1 } id :=
        howned.congr rfl rfl rfl rfl rfl
      exact (hattempted.release howned').fail howned'.running_release failure
  | none =>
      have hcreated : Sound (cache.note
          (.created (cache.clients + 1) (Connection.ofSettings settings))) := h.note rfl rfl rfl
      have hentered := hcreated.enter hnone
      have howned' : Owned ((cache.note (.created (cache.clients + 1)
          (Connection.ofSettings settings))).enter (Connection.ofSettings settings).key) id :=
        howned.congr rfl rfl rfl rfl rfl
      have hjournal := howned'.spares_release.journal
      have hnot := hcreated.toKept.not_told (Nat.lt_succ_self _)
      refine (hentered.release howned').deliver howned'.running_release ?_
      rw [hjournal]
      exact ⟨fun htold => absurd htold hnot, fun hlingering =>
        absurd (told_of_lingering hlingering) hnot⟩

/-- A task that has the lock gets its client, and gives the lock back. -/
theorem Sound.getLocked
    {cache : ClientCache}
    {id : TaskId}
    (h : Sound cache)
    (howned : Owned cache id)
    (settings : Settings) :
    Sound (cache.getLocked id settings) := by
  unfold ClientCache.getLocked
  dsimp only
  cases hcached : Entries.get? (Connection.ofSettings settings).key cache.entries with
  | some client =>
      have hjournal := howned.spares_release.journal
      refine (h.release howned).deliver howned.running_release ?_
      rw [hjournal]
      exact h.toKept.told_iff hcached
  | none =>
      refine (h.log .info _).getCreated (howned.log .info _) ?_
      rcases log_eq_or cache .info ("Creating " ++ (Connection.ofSettings settings).engine.name ++
        " client for " ++ (Connection.ofSettings settings).account.host) with heq | heq
      · rw [heq]
        exact hcached
      · rw [heq]
        exact hcached

/-! ### Closing -/

/-- A task that has the lock fails to close a client: the cache is not emptied. -/
theorem Owned.sound_fail
    {cache : ClientCache}
    {id : TaskId}
    (howned : Owned cache id)
    (h : Kept cache)
    (hclose : (cache.task id).job = .close)
    (failure : CacheFailure) :
    Sound (cache.release.finish id (.error failure)) := by
  have hkept := howned.kept_release h
  refine ⟨howned.release.1.finish howned.running_release _,
    hkept.finish howned.running_release rfl fun given hhanded => ?_, fun _ => Or.inr ?_⟩
  · cases hhanded
  · have hkeeps : KeepsJobs cache (cache.release.finish id (.error failure)) :=
      howned.spares_release.jobs.trans (keepsJobs_finish _ id _)
    obtain ⟨hlt, hjob⟩ := hkeeps id (lt_size_of_state howned.running (by simp))
    refine ⟨id, failure, ?_, hlt, hjob.trans hclose⟩
    rw [show recent (cache.release.finish id (.error failure)).journal = _ from recent_cons rfl]
    exact List.mem_cons_self

/-- A task that has the lock has closed all clients: the cache is emptied. -/
theorem Owned.sound_emptied
    {cache : ClientCache}
    {id : TaskId}
    (howned : Owned cache id)
    (h : Kept cache) :
    Sound ({ cache with entries := [] }.release.finish id (.ok .nothing)) := by
  have howned' : Owned { cache with entries := [] } id := howned.congr rfl rfl rfl rfl rfl
  have hspares := howned'.spares_release
  have hpass := pass?_finish howned'.running_release (.ok .nothing)
  have hlast : ({ cache with entries := [] }.release.finish id (.ok .nothing)).journal =
      .ended id (.ok .nothing) :: cache.journal := congrArg (_ :: ·) hspares.journal
  refine ⟨howned'.release.1.finish howned'.running_release _, ?_, fun hne => ?_⟩
  · refine h.emptied hspares.entries hspares.clients hlast fun other => (hpass other).trans ?_
    exact (hspares.pass other).trans (howned'.alone other)
  · rw [hlast] at hne
    exact absurd (lingering_of_empties rfl) hne

/-- A task that has the lock waits for a client to close. -/
theorem Owned.sound_wait
    {cache : ClientCache}
    {id : TaskId}
    {rest : List (String × ClientId)}
    (howned : Owned cache id)
    (h : Kept cache)
    (hclose : (cache.task id).job = .close)
    (hrest : ∀ entry ∈ rest, entry ∈ cache.entries)
    (gate : String)
    (client : ClientId) :
    Sound ({ cache with gates := cache.gates.wait id gate }.park id (.gate gate)
      (.closing client rest)) := by
  have hself : ({ cache with gates := cache.gates.wait id gate }.park id (.gate gate)
      (.closing client rest)).task id =
      { cache.task id with state := .waiting (.gate gate), point := .closing client rest } :=
    task_update_self (lt_size_of_state howned.running (by simp)) _
  refine ⟨howned.wait gate client rest, ⟨h.keys, h.keyed, h.numbered, h.told, h.fresh, h.cached, ?_,
    h.handed⟩, fun _ => Or.inl ⟨id, ?_⟩⟩
  · intro other client' rest' hpass
    by_cases hsame : other = id
    · subst hsame
      rw [hself] at hpass ⊢
      cases hpass
      exact ⟨hclose, hrest⟩
    · have hother : ({ cache with gates := cache.gates.wait id gate }.park id (.gate gate)
          (.closing client rest)).task other = cache.task other := task_update_of_ne hsame _
      rw [hother, howned.alone] at hpass
      cases hpass
  · rw [hself]
    exact Option.some_ne_none (client, rest)

/-- The cache in which a client is told to close. -/
def telling (cache : ClientCache) (key : String) (client : ClientId) : ClientCache :=
  (cache.log .info ("Closing client " ++ key)).note (.closing client)

theorem telling_same (cache : ClientCache) (key : String) (client : ClientId) :
    (cache.telling key client).entries = cache.entries ∧
      (cache.telling key client).tasks = cache.tasks := by
  rcases log_eq_or cache .info ("Closing client " ++ key) with heq | heq
  · rw [telling, heq]
    exact ⟨rfl, rfl⟩
  · rw [telling, heq]
    exact ⟨rfl, rfl⟩

/-- A task that has the lock closes clients of the cache, one after the other. -/
theorem Owned.sound_closeAll
    {id : TaskId}
    (clients : List (String × ClientId))
    {cache : ClientCache}
    (howned : Owned cache id)
    (h : Kept cache)
    (hclose : (cache.task id).job = .close)
    (hclients : ∀ entry ∈ clients, entry ∈ cache.entries) :
    Sound (closeAll id clients cache) := by
  induction clients generalizing cache with
  | nil => exact howned.sound_emptied h
  | cons entry rest ih =>
      obtain ⟨key, client⟩ := entry
      obtain ⟨hentries, htasks⟩ := telling_same cache key client
      have hlogged : (key, client) ∈ (cache.log .info ("Closing client " ++ key)).entries :=
        hentries.symm ▸ hclients (key, client) List.mem_cons_self
      have htold : Kept (cache.telling key client) := (h.log .info _).closing hlogged
      have howned' : Owned (cache.telling key client) id :=
        (howned.log .info _).congr rfl rfl rfl rfl rfl
      have hclose' : ((cache.telling key client).task id).job = .close := by
        rw [task_congr htasks]
        exact hclose
      have hrest : ∀ entry ∈ rest, entry ∈ (cache.telling key client).entries :=
        fun entry hmem => hentries.symm ▸ hclients entry (List.mem_cons_of_mem _ hmem)
      rw [closeAll]
      split
      · rename_i gate _
        exact howned'.sound_wait htold hclose' hrest gate client
      · split
        · rename_i failure _
          exact howned'.sound_fail htold hclose' failure
        · have hclosed : Kept ((cache.telling key client).note (.closed client)) := by
            refine htold.note rfl rfl fun given hhanded => ?_
            cases hhanded
          exact ih (howned'.congr rfl rfl rfl rfl rfl) hclosed hclose' hrest

/-- A client that a task waited for is closed, or fails to close. -/
theorem Owned.sound_closeRest
    {cache : ClientCache}
    {id : TaskId}
    {rest : List (String × ClientId)}
    (howned : Owned cache id)
    (h : Kept cache)
    (hclose : (cache.task id).job = .close)
    (hrest : ∀ entry ∈ rest, entry ∈ cache.entries)
    (client : ClientId) :
    Sound (cache.closeRest id client rest) := by
  unfold ClientCache.closeRest
  split
  · rename_i failure _
    exact howned.sound_fail h hclose failure
  · have hclosed : Kept (cache.note (.closed client)) := by
      refine h.note rfl rfl fun given hhanded => ?_
      cases hhanded
    have howned' : Owned (cache.note (.closed client)) id := howned.congr rfl rfl rfl rfl rfl
    exact howned'.sound_closeAll rest hclosed hclose hrest

end ClientCache
end TraceArchive
