import TraceArchive.Proofs.Client.Closing

/-!
# Which closed clients are handed out

A client that was told to close is handed out while the task that closes the clients waits for one
of them, and when that task has failed; and then to everybody who asks.

* `sound_of_reachable`: every turn and every event leaves the cache as it should be.
* `wake_of_cached`: a client of the cache is handed out without the lock.
* `handed_iff_lingering`: a client that was told to close is handed out just when it is lingering.
-/

set_option autoImplicit false

namespace TraceArchive
namespace ClientCache

/-! ### Every move -/

theorem Sound.withLock
    {cache : ClientCache}
    {id : TaskId}
    (h : Sound cache)
    (howned : Owned cache id) :
    Sound (cache.withLock id) := by
  unfold ClientCache.withLock
  split
  · exact h.getLocked howned _
  · exact h.getLocked howned _
  · rename_i hclose
    exact howned.sound_closeAll cache.entries h.toKept hclose fun _ hmem => hmem

/-- A running task takes the lock, or waits for it. -/
theorem Sound.acquire
    {cache : ClientCache}
    {id : TaskId}
    (h : Sound cache)
    (hrunning : (cache.task id).state = .running) :
    Sound (cache.acquire id) := by
  unfold ClientCache.acquire
  split
  · rename_i hfree
    have howned := h.toGuarded.take_of_free hrunning hfree
    refine Sound.withLock ?_ howned
    exact h.congr howned.toGuarded ⟨rfl, rfl, rfl, fun _ => rfl, .of_tasks_eq rfl⟩
  · exact h.congr (h.toGuarded.park hrunning) (spares_park hrunning)

theorem Sound.getClient
    {cache : ClientCache}
    {id : TaskId}
    (h : Sound cache)
    (hrunning : (cache.task id).state = .running)
    (settings : Settings) :
    Sound (cache.getClient id settings) := by
  unfold ClientCache.getClient
  split
  · rename_i client hcached
    exact h.deliver hrunning (h.toKept.told_iff hcached)
  · exact h.acquire hrunning

/-- A running task starts. -/
theorem Sound.begin
    {cache : ClientCache}
    {id : TaskId}
    (h : Sound cache)
    (hrunning : (cache.task id).state = .running) :
    Sound (cache.begin id) := by
  unfold ClientCache.begin
  split
  · exact h.getClient hrunning _
  · rename_i settings given _
    split
    · exact h.fail hrunning _
    · rename_i logger _
      have hset : Sound { cache with logger := logger } :=
        ⟨h.toGuarded.congr rfl rfl rfl rfl rfl, h.toKept.congr rfl (Nat.le_refl _) rfl
          (fun _ _ hpass => hpass) (.of_tasks_eq rfl), h.cause⟩
      dsimp only
      split
      · refine hset.finishStore hrunning settings fun client hnone => ?_
        cases hnone
      · exact hset.getClient hrunning settings
  · exact h.acquire hrunning

/-- A task that is not in the middle of a closing goes on. -/
theorem Sound.leaving
    {cache : ClientCache}
    {id : TaskId}
    {signal : Signal}
    (h : Sound cache)
    (hstate : (cache.task id).state = .ready signal)
    (hid : id < cache.tasks.size)
    (hpass : (cache.task id).pass? = none) :
    Sound (cache.leaving id) := by
  obtain ⟨hleaving, hrunning⟩ := h.toGuarded.leaving hid hstate
  refine h.congr hleaving ⟨rfl, rfl, rfl, fun other => ?_, keepsJobs_resume cache id⟩
  by_cases hsame : other = id
  · subst hsame
    rw [CacheTask.pass?_of_running hrunning, hpass]
  · exact congrArg CacheTask.pass? (task_update_of_ne hsame _)

/-- A task that does not stand before the lock, nor is in the middle of a closing, goes on. -/
theorem Sound.resume
    {cache : ClientCache}
    {id : TaskId}
    {signal : Signal}
    (h : Sound cache)
    (hstate : (cache.task id).state = .ready signal)
    (hid : id < cache.tasks.size)
    (hpass : (cache.task id).pass? = none)
    (hout : (cache.task id).point ≠ .locking ∨ (cache.task id).isPaused = false) :
    Sound (cache.updateTask id fun task => { task with state := .running }) := by
  rw [← h.toGuarded.leaving_eq hout]
  exact h.leaving hstate hid hpass

/-- A task in the middle of a closing goes on, and still has the lock. -/
theorem Sound.kept_resume
    {cache : ClientCache}
    {id : TaskId}
    (h : Sound cache)
    (hid : id < cache.tasks.size) :
    Kept (cache.updateTask id fun task => { task with state := .running }) := by
  refine h.toKept.congr rfl (Nat.le_refl _) rfl ?_ (keepsJobs_resume cache id)
  exact fun _ _ => pass?_of_resume hid

/-- A task has what it waited for. -/
theorem Sound.proceed
    {cache : ClientCache}
    {id : TaskId}
    (h : Sound cache)
    (hstate : (cache.task id).state = .ready .proceed)
    (hid : id < cache.tasks.size) :
    Sound ((cache.updateTask id fun task => { task with state := .running }).proceed id) := by
  have hself : (cache.updateTask id fun task => { task with state := .running }).task id =
      { cache.task id with state := .running } := task_update_self hid _
  have hpaused : (cache.task id).isPaused = true := by rw [CacheTask.isPaused, hstate]
  have hpass := CacheTask.pass?_of_isPaused hpaused
  unfold ClientCache.proceed
  rw [hself]
  dsimp only
  cases hpoint : (cache.task id).point with
  | start =>
      have hresumed := h.resume hstate hid (by rw [hpass, hpoint]) (Or.inl (by simp [hpoint]))
      exact hresumed.begin (congrArg CacheTask.state hself)
  | locking =>
      have howned := h.toGuarded.owned_of_granted hstate hpoint
      have hleaving := h.leaving hstate hid (by rw [hpass, hpoint])
      have hheld : Sound { cache.leaving id with held := true } :=
        hleaving.congr howned.toGuarded ⟨rfl, rfl, rfl, fun _ => rfl, .of_tasks_eq rfl⟩
      exact hheld.withLock howned
  | closing client rest =>
      have hsome : (cache.task id).pass? = some (client, rest) := by rw [hpass, hpoint]
      obtain ⟨hclose, hrest⟩ := h.toKept.passing id client rest hsome
      have howned := h.toGuarded.owned_of_pass hstate (by simp [hsome])
      have hjob := (keepsJobs_resume cache id id hid).2.trans hclose
      exact howned.sound_closeRest (h.kept_resume hid) hjob hrest client

/-- A task is interrupted where it waited. -/
theorem Sound.interrupt
    {cache : ClientCache}
    {id : TaskId}
    (h : Sound cache)
    (hstate : (cache.task id).state = .ready .interrupt)
    (hid : id < cache.tasks.size) :
    Sound ((cache.updateTask id fun task => { task with state := .running }).interrupt id) := by
  have hself : (cache.updateTask id fun task => { task with state := .running }).task id =
      { cache.task id with state := .running } := task_update_self hid _
  have hpaused : (cache.task id).isPaused = true := by rw [CacheTask.isPaused, hstate]
  have hpass := CacheTask.pass?_of_isPaused hpaused
  unfold ClientCache.interrupt
  rw [hself]
  dsimp only
  cases hpoint : (cache.task id).point with
  | start =>
      have hresumed := h.resume hstate hid (by rw [hpass, hpoint]) (Or.inl (by simp [hpoint]))
      exact hresumed.fail (congrArg CacheTask.state hself) .interrupted
  | locking =>
      have hleaving := h.leaving hstate hid (by rw [hpass, hpoint])
      have hrunning := (h.toGuarded.leaving hid hstate).2
      change Sound (ClientCache.finish (if (cache.leaving id).held then cache.leaving id
        else (cache.leaving id).wakeFirst) id (.error .interrupted))
      split
      · exact hleaving.fail hrunning .interrupted
      · rename_i hfree
        refine (hleaving.wakeFirst (Bool.eq_false_iff.mpr hfree)).fail ?_ .interrupted
        rw [hleaving.toGuarded.running_wakeFirst hrunning]
        exact hrunning
  | closing client rest =>
      have hsome : (cache.task id).pass? = some (client, rest) := by rw [hpass, hpoint]
      obtain ⟨hclose, _⟩ := h.toKept.passing id client rest hsome
      have howned := h.toGuarded.owned_of_pass hstate (by simp [hsome])
      have hjob := (keepsJobs_resume cache id id hid).2.trans hclose
      exact howned.sound_fail (h.kept_resume hid) hjob .interrupted

theorem Sound.wake
    {cache : ClientCache}
    {id : TaskId}
    (h : Sound cache)
    (hid : id < cache.tasks.size) :
    Sound (cache.wake id) := by
  have hself : (cache.updateTask id fun task => { task with state := .running }).task id =
      { cache.task id with state := .running } := task_update_self hid _
  have hunstarted : ∀ signal, (cache.task id).state = .ready signal →
      (cache.task id).isPaused = false →
        Sound (cache.updateTask id fun task => { task with state := .running }) :=
    fun _ hstate hpaused =>
      h.resume hstate hid (CacheTask.pass?_of_not_isPaused hpaused) (Or.inr hpaused)
  have hrunning := congrArg CacheTask.state hself
  unfold ClientCache.wake
  dsimp only
  split
  · rename_i hstate
    exact (hunstarted _ hstate (by rw [CacheTask.isPaused, hstate])).begin hrunning
  · rename_i hstate
    exact h.proceed hstate hid
  · rename_i hstate
    exact h.interrupt hstate hid
  · rename_i hstate
    exact (hunstarted _ hstate (by rw [CacheTask.isPaused, hstate])).fail hrunning _
  · exact h

theorem Sound.step
    {cache : ClientCache}
    (h : Sound cache) :
    Sound cache.step := by
  unfold ClientCache.step
  split
  · exact h
  · rename_i id rest hready
    obtain ⟨hpopped, hid⟩ := h.toGuarded.pop hready
    have hsound : Sound { cache with ready := rest } :=
      h.congr hpopped ⟨rfl, rfl, rfl, fun _ => rfl, .of_tasks_eq rfl⟩
    exact hsound.wake hid

/-- A client that is not put into the cache is made. -/
theorem Sound.create
    {cache : ClientCache}
    (h : Sound cache)
    (connection : Connection) :
    Sound (cache.create connection).2 := by
  have hattempted : ∀ clients, cache.clients ≤ clients →
      Sound { cache with attempts := cache.attempts + 1, clients := clients } :=
    fun clients hle => ⟨h.toGuarded.congr rfl rfl rfl rfl rfl, h.toKept.congr rfl hle rfl
      (fun _ _ hpass => hpass) (.of_tasks_eq rfl), h.cause⟩
  unfold ClientCache.create
  dsimp only
  split
  · exact hattempted cache.clients (Nat.le_refl _)
  · exact (hattempted _ (Nat.le_succ _)).note rfl rfl rfl

/-- Every move leaves the cache sound. -/
theorem sound_of_move
    {cache after : ClientCache}
    (h : Sound cache)
    (hmove : Move cache after) :
    Sound after := by
  cases hmove with
  | step => exact h.step
  | create connection => exact h.create connection
  | spawn name job =>
      obtain ⟨hguarded, hspares⟩ := h.toGuarded.spawn name job
      exact h.congr hguarded hspares
  | cancelTask task htask =>
      obtain ⟨hguarded, hspares⟩ := h.toGuarded.cancelTask htask
      exact h.congr hguarded hspares
  | openGate gate =>
      obtain ⟨hguarded, hspares⟩ := h.toGuarded.openGate gate
      exact h.congr hguarded hspares

theorem sound_start
    (openings : Nat → Option CacheFailure)
    (closings : ClientId → Closing) :
    Sound (start openings closings) := by
  refine ⟨guarded_start openings closings, ⟨List.nodup_nil, ?_, ?_, ?_, ?_, ?_, ?_, ?_⟩,
    fun hne => absurd rfl hne⟩
  · exact fun entry hmem => absurd hmem List.not_mem_nil
  · exact fun entry hmem => absurd hmem List.not_mem_nil
  · exact fun client hmem => absurd hmem List.not_mem_nil
  · exact fun entry hmem => absurd hmem List.not_mem_nil
  · exact fun client hmem => absurd hmem List.not_mem_nil
  · intro id client rest hpass
    rw [task_start] at hpass
    cases hpass
  · intro newer entry older client heq
    cases newer <;> cases heq

/-- **Every reachable cache is sound.** -/
theorem sound_of_reachable
    {cache : ClientCache}
    (h : cache.Reachable) :
    Sound cache :=
  h.induct sound_start fun _ _ => sound_of_move

/-! ### Clients that are handed out -/

/-- Whoever asks for a client that is in the cache is handed it at once, without the lock. -/
theorem wake_of_cached
    {cache : ClientCache}
    {id : TaskId}
    {settings : Settings}
    {client : ClientId}
    (hid : id < cache.tasks.size)
    (hstate : (cache.task id).state = .ready .start)
    (hjob : (cache.task id).job = .get settings)
    (hcached : Entries.get? (Connection.ofSettings settings).key cache.entries = some client) :
    (cache.wake id).journal = .ended id (.ok (.client client)) :: cache.journal := by
  have hself : (cache.updateTask id fun task => { task with state := .running }).task id =
      { cache.task id with state := .running } := task_update_self hid _
  unfold ClientCache.wake
  dsimp only
  rw [hstate]
  dsimp only
  unfold ClientCache.begin
  rw [hself, hjob]
  dsimp only
  unfold ClientCache.getClient
  rw [show Entries.get? _ (cache.updateTask id _).entries = some client from hcached]
  dsimp only
  unfold ClientCache.deliver
  rw [hself, hjob]
  rfl

/-- **Which closed clients are handed out.**  A client that is handed out was told to close just
when it is lingering: it was told so by a task that has not come to the end of its closing.  Every
lingering client is still in the cache, and is handed to the next one who asks for it; and clients
are lingering only while a task is closing them, or after such a task has failed. -/
theorem handed_iff_lingering
    {cache : ClientCache}
    (h : cache.Reachable) :
    IsExact cache.journal ∧
      (∀ client ∈ lingering cache.journal, ∃ settings, ∀ id < cache.tasks.size,
        (cache.task id).state = .ready .start → (cache.task id).job = .get settings →
          (cache.wake id).journal = .ended id (.ok (.client client)) :: cache.journal) ∧
      (lingering cache.journal ≠ [] → cache.IsClosing ∨ cache.HasFailed) := by
  have hsound := sound_of_reachable h
  refine ⟨hsound.handed, fun client hlingering => ?_, hsound.cause⟩
  obtain ⟨key, hmem⟩ := hsound.cached client hlingering
  obtain ⟨settings, rfl⟩ := hsound.keyed _ hmem
  have hcached := (Entries.get?_eq_some_iff hsound.keys).mpr hmem
  exact ⟨settings, fun id hid hstate hjob => wake_of_cached hid hstate hjob hcached⟩

/-- Settings for one backend of each kind. -/
def settingsFor (engine : Engine) : Settings :=
  ⟨engine, ⟨"localhost:9200", "elastic", "password"⟩, ⟨"localhost:9200", "admin", "admin"⟩, none,
    "zipkin", "-", true, 86400000, 10000, "INFO"⟩

/-- An empty cache whose second client will fail to close. -/
def fragile : ClientCache :=
  start (fun _ => none) fun client =>
    ⟨none, if client = 2 then some (.raised "ConnectionError" "backend down") else none⟩

/-- A cache in which the first of two clients was closed and the second failed to close, before the
first one was asked for again. -/
def halfClosed : ClientCache :=
  ((((fragile.spawn "first" (.get (settingsFor .elasticsearch))).spawn "second"
    (.get (settingsFor .opensearch))).spawn "close" .close).spawn "again"
      (.get (settingsFor .elasticsearch))).settle 10

theorem reachable_halfClosed : halfClosed.Reachable := by
  have hfirst := Relation.ReflTransGen.single
    (Move.spawn fragile "first" (.get (settingsFor .elasticsearch)))
  have hsecond := hfirst.tail (Move.spawn _ "second" (.get (settingsFor .opensearch)))
  have hclose := hsecond.tail (Move.spawn _ "close" .close)
  have hagain := hclose.tail (Move.spawn _ "again" (.get (settingsFor .elasticsearch)))
  exact ⟨_, _, hagain.trans (run_settle 10 _)⟩

/-- The closed client is handed out, and it is lingering. -/
theorem handed_iff_lingering_halfClosed :
    ∃ older, halfClosed.journal = .ended 3 (.ok (.client 1)) :: older ∧
      .closed 1 ∈ older ∧ 1 ∈ lingering older := by
  have hhead : halfClosed.journal = .ended 3 (.ok (.client 1)) :: halfClosed.journal.tail := rfl
  have hearlier : halfClosed.journal.tail.drop 3 =
      .closed 1 :: .closing 1 :: halfClosed.journal.tail.drop 5 := rfl
  have hclosed : .closed 1 ∈ halfClosed.journal.tail :=
    List.mem_of_mem_drop (hearlier ▸ List.mem_cons_self)
  have htold : .closing 1 ∈ halfClosed.journal.tail :=
    List.mem_of_mem_drop (hearlier ▸ List.mem_cons_of_mem _ List.mem_cons_self)
  have hexact := (handed_iff_lingering reachable_halfClosed).1 [] _ _ 1 hhead rfl
  exact ⟨_, hhead, hclosed, hexact.mp htold⟩

end ClientCache
end TraceArchive
