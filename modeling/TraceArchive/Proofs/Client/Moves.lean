import Mathlib.Logic.Relation
import TraceArchive.Client.Run

/-!
# Runs of the client cache

Tasks of the cache go on one after the other.  Between their turns new tasks come, tasks are
canceled, and gates are opened.  Every order of events is a run.

* `CacheTask.pass?`: the closing that a task is in the middle of.
* `ClientCache.Move`, `ClientCache.Run`, `ClientCache.Reachable`: one move, any number of them, and
  what they lead to from an empty cache.
* `Spares`: a change of the cache that nobody who asks for clients can see.
-/

set_option autoImplicit false

namespace TraceArchive

/-- A task that was started waits, or is to go on from where it waited. -/
def CacheTask.isPaused (task : CacheTask) : Bool :=
  match task.state with
  | .waiting _ => true
  | .ready .proceed => true
  | .ready .interrupt => true
  | _ => false

/-- The closing of clients that a task is in the middle of: the client that it waits for, and those
that come after it. -/
def CacheTask.pass? (task : CacheTask) : Option (ClientId × List (String × ClientId)) :=
  match task.point with
  | .closing client rest => if task.isPaused then some (client, rest) else none
  | _ => none

/-- What a task with a place in the queue for the lock is doing. -/
def CacheTask.Holds (task : CacheTask) : Ticket → Prop
  | .waiting => task.state = .waiting .lock
  | .granted => task.state = .ready .proceed ∨ task.state = .ready .interrupt
  | .withdrawn => task.state = .ready .interrupt

/-- A task in the queue for the lock is paused. -/
theorem CacheTask.Holds.isPaused
    {task : CacheTask}
    {ticket : Ticket}
    (h : task.Holds ticket) :
    task.isPaused = true := by
  unfold CacheTask.isPaused
  cases ticket with
  | waiting => rw [show task.state = .waiting .lock from h]
  | granted => rcases h with h | h <;> rw [h]
  | withdrawn => rw [show task.state = .ready .interrupt from h]

/-- Only a task that is paused is in the middle of a closing. -/
theorem CacheTask.pass?_of_not_isPaused
    {task : CacheTask}
    (h : task.isPaused = false) :
    task.pass? = none := by
  unfold pass?
  rw [h]
  cases task.point <;> rfl

theorem CacheTask.pass?_of_running
    {task : CacheTask}
    (h : task.state = .running) :
    task.pass? = none :=
  pass?_of_not_isPaused (by rw [isPaused, h])

/-- Where a paused task stands tells whether it is in the middle of a closing. -/
theorem CacheTask.pass?_of_isPaused
    {task : CacheTask}
    (h : task.isPaused = true) :
    task.pass? = match task.point with
      | .closing client rest => some (client, rest)
      | _ => none := by
  unfold pass?
  rw [h]
  cases task.point <;> rfl

theorem CacheTask.pass?_eq_some
    {task : CacheTask}
    {client : ClientId}
    {rest : List (String × ClientId)}
    (h : task.pass? = some (client, rest)) :
    task.point = .closing client rest ∧ task.isPaused = true := by
  unfold pass? at h
  split at h
  · rename_i hpoint
    split at h
    · rename_i hpaused
      cases h
      exact ⟨hpoint, hpaused⟩
    · cases h
  · cases h

theorem CacheTask.pass?_congr
    {task after : CacheTask}
    (hpoint : after.point = task.point)
    (hpaused : after.isPaused = task.isPaused) :
    after.pass? = task.pass? := by
  rw [pass?, pass?, hpoint, hpaused]

namespace ClientCache

/-! ### Moves -/

/-- What can happen to the cache next.  Tasks that are ready go on one after the other, each until
it waits or has ended. -/
inductive Move : ClientCache → ClientCache → Prop
  | step (cache : ClientCache) : Move cache cache.step
  | spawn (cache : ClientCache) (name : String) (job : Job) : Move cache (cache.spawn name job)
  | create (cache : ClientCache) (connection : Connection) :
      Move cache (cache.create connection).2
  | cancelTask (cache : ClientCache) (task : TaskId) (htask : task < cache.tasks.size) :
      Move cache (cache.cancelTask task).2
  | openGate (cache : ClientCache) (gate : String) : Move cache (cache.openGate gate)

/-- Any number of moves. -/
abbrev Run : ClientCache → ClientCache → Prop :=
  Relation.ReflTransGen Move

/-- A cache that came about from an empty one. -/
def Reachable (cache : ClientCache) : Prop :=
  ∃ openings closings, Run (start openings closings) cache

/-- What holds of empty caches and survives every move holds of every reachable cache. -/
theorem Reachable.induct
    {motive : ClientCache → Prop}
    (hstart : ∀ openings closings, motive (start openings closings))
    (hmove : ∀ cache after, motive cache → Move cache after → motive after)
    {cache : ClientCache}
    (h : cache.Reachable) :
    motive cache := by
  obtain ⟨openings, closings, hrun⟩ := h
  induction hrun with
  | refl => exact hstart openings closings
  | tail _ hlast ih => exact hmove _ _ ih hlast

/-- The steps of the ready tasks are a run. -/
theorem run_settle (budget : Nat) (cache : ClientCache) :
    Run cache (cache.settle budget) := by
  induction budget generalizing cache with
  | zero => exact Relation.ReflTransGen.refl
  | succ budget ih =>
      rw [settle]
      split
      · exact Relation.ReflTransGen.refl
      · exact Relation.ReflTransGen.head (Move.step cache) (ih cache.step)

/-! ### Tasks -/

theorem task_congr
    {cache after : ClientCache}
    (h : after.tasks = cache.tasks)
    (id : TaskId) :
    after.task id = cache.task id := by
  rw [task, task, h]

theorem task_update
    {cache : ClientCache}
    {id : TaskId}
    (hid : id < cache.tasks.size)
    (change : CacheTask → CacheTask)
    (other : TaskId) :
    (cache.updateTask id change).task other =
      if other = id then change (cache.task other) else cache.task other := by
  simp only [task, updateTask, Array.getD_eq_getD_getElem?, Array.getElem?_modify]
  by_cases h : id = other
  · subst h
    simp [hid]
  · simp [h, Ne.symm h]

theorem task_update_self
    {cache : ClientCache}
    {id : TaskId}
    (hid : id < cache.tasks.size)
    (change : CacheTask → CacheTask) :
    (cache.updateTask id change).task id = change (cache.task id) :=
  (task_update hid change id).trans (if_pos rfl)

theorem task_update_of_ne
    {cache : ClientCache}
    {id other : TaskId}
    (h : other ≠ id)
    (change : CacheTask → CacheTask) :
    (cache.updateTask id change).task other = cache.task other := by
  simp [task, updateTask, Array.getD_eq_getD_getElem?, Array.getElem?_modify, Ne.symm h]

/-- No task that exists gets another job. -/
def KeepsJobs (cache after : ClientCache) : Prop :=
  ∀ id < cache.tasks.size, id < after.tasks.size ∧ (after.task id).job = (cache.task id).job

theorem KeepsJobs.of_tasks_eq
    {cache after : ClientCache}
    (h : after.tasks = cache.tasks) :
    KeepsJobs cache after := by
  intro id hid
  rw [task_congr h, h]
  exact ⟨hid, rfl⟩

theorem KeepsJobs.trans
    {cache middle after : ClientCache}
    (h : KeepsJobs cache middle)
    (h' : KeepsJobs middle after) :
    KeepsJobs cache after := by
  intro id hid
  obtain ⟨hlt, hjob⟩ := h id hid
  exact ⟨(h' id hlt).1, (h' id hlt).2.trans hjob⟩

theorem keepsJobs_updateTask
    (cache : ClientCache)
    (id : TaskId)
    {change : CacheTask → CacheTask}
    (hchange : ∀ task, (change task).job = task.job) :
    KeepsJobs cache (cache.updateTask id change) := by
  intro other hother
  refine ⟨Array.size_modify.symm ▸ hother, ?_⟩
  by_cases hsame : other = id
  · subst hsame
    rw [task_update_self hother, hchange]
  · rw [task_update_of_ne hsame]

theorem keepsJobs_finish (cache : ClientCache) (id : TaskId) (outcome : CacheOutcome) :
    KeepsJobs cache (cache.finish id outcome) := by
  have hchange : ∀ task : CacheTask, { task with state := .ended outcome }.job = task.job :=
    fun _ => rfl
  exact keepsJobs_updateTask cache id hchange

theorem keepsJobs_park
    (cache : ClientCache)
    (id : TaskId)
    (place : Place)
    (point : Progression) :
    KeepsJobs cache (cache.park id place point) := by
  have hchange : ∀ task : CacheTask,
      { task with state := .waiting place, point := point }.job = task.job := fun _ => rfl
  exact keepsJobs_updateTask cache id hchange

/-- A task that does not exist counts as one that is about to start. -/
theorem lt_size_of_state
    {cache : ClientCache}
    {id : TaskId}
    {state : TaskState Place CacheOutcome}
    (h : (cache.task id).state = state)
    (hstate : state ≠ .ready .start) :
    id < cache.tasks.size := by
  by_cases hid : id < cache.tasks.size
  · exact hid
  · refine absurd (h.symm.trans ?_) hstate
    simp [task, Array.getD_eq_getD_getElem?, hid, default]

theorem lt_size_of_pass
    {cache : ClientCache}
    {id : TaskId}
    (h : (cache.task id).pass? ≠ none) :
    id < cache.tasks.size := by
  by_cases hid : id < cache.tasks.size
  · exact hid
  · refine absurd ?_ h
    simp [task, Array.getD_eq_getD_getElem?, hid, default, CacheTask.pass?]

/-- Neither what is cached nor what was observed changes, nor who is closing clients. -/
structure Spares (cache after : ClientCache) : Prop where
  entries : after.entries = cache.entries
  clients : after.clients = cache.clients
  journal : after.journal = cache.journal
  pass : ∀ id, (after.task id).pass? = (cache.task id).pass?
  jobs : KeepsJobs cache after

theorem Spares.of_tasks_eq
    {cache after : ClientCache}
    (hentries : after.entries = cache.entries)
    (hclients : after.clients = cache.clients)
    (hjournal : after.journal = cache.journal)
    (htasks : after.tasks = cache.tasks) :
    Spares cache after :=
  ⟨hentries, hclients, hjournal, fun id => congrArg CacheTask.pass? (task_congr htasks id),
    .of_tasks_eq htasks⟩

theorem Spares.refl (cache : ClientCache) : Spares cache cache :=
  .of_tasks_eq rfl rfl rfl rfl

theorem Spares.trans
    {cache middle after : ClientCache}
    (h : Spares cache middle)
    (h' : Spares middle after) :
    Spares cache after :=
  ⟨h'.entries.trans h.entries, h'.clients.trans h.clients, h'.journal.trans h.journal,
    fun id => (h'.pass id).trans (h.pass id), h.jobs.trans h'.jobs⟩

/-- A task changes, but not whether it is in the middle of a closing. -/
theorem spares_updateTask
    {cache : ClientCache}
    {id : TaskId}
    {change : CacheTask → CacheTask}
    (hid : id < cache.tasks.size)
    (hjob : ∀ task, (change task).job = task.job)
    (hpass : (change (cache.task id)).pass? = (cache.task id).pass?) :
    Spares cache (cache.updateTask id change) := by
  refine ⟨rfl, rfl, rfl, fun other => ?_, keepsJobs_updateTask cache id hjob⟩
  by_cases hsame : other = id
  · subst hsame
    rw [task_update_self hid, hpass]
  · rw [task_update_of_ne hsame]

theorem spares_rouse
    {cache : ClientCache}
    {id : TaskId}
    {signal : Signal}
    (hid : id < cache.tasks.size)
    (hpass : CacheTask.pass? { cache.task id with state := .ready signal } =
      (cache.task id).pass?) :
    Spares cache (cache.rouse id signal) := by
  have hchange : ∀ task : CacheTask, { task with state := .ready signal }.job = task.job :=
    fun _ => rfl
  exact (spares_updateTask hid hchange hpass).trans (.of_tasks_eq rfl rfl rfl rfl)

end ClientCache
end TraceArchive
