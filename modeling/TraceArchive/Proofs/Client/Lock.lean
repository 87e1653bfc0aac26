import TraceArchive.Proofs.Client.Moves

/-!
# The lock of the client cache

One task at a time creates or closes clients.  The lock goes to the tasks that wait for it in the
order in which they came; a task that closes clients keeps it while it waits for one of them.

* `Guarded`: at most one task is closing clients, and while it does nobody else is granted the lock.
* `Owned`: the running task holds the lock, and nobody else does.
* `Guarded.finish`, `Guarded.park`, `Guarded.take`, `Owned.release`, `Owned.wait`: what the running
  task may do.
* `Guarded.leaving`, `Guarded.resume`, `Guarded.owned_of_granted`, `Guarded.owned_of_pass`: how a
  task goes on.
-/

set_option autoImplicit false

namespace TraceArchive
namespace ClientCache

/-! ### Who has the lock -/

/-- At most one task is closing clients, and then it has the lock; else the lock may have been
granted to the first task in the queue. -/
structure Guarded (cache : ClientCache) : Prop where
  queued : ∀ id ticket, (id, ticket) ∈ cache.queue →
    (cache.task id).point = .locking ∧ (cache.task id).Holds ticket
  nodup : (cache.queue.map Prod.fst).Nodup
  first : ∀ entry ∈ cache.queue.tail, entry.2 ≠ .granted
  free : ∀ id, (id, .granted) ∈ cache.queue → cache.held = false
  granted : ∀ id, (cache.task id).state = .ready .proceed → (cache.task id).point = .locking →
    (id, .granted) ∈ cache.queue
  holds : ∀ id, (cache.task id).pass? ≠ none → cache.held = true
  single : ∀ id other, (cache.task id).pass? ≠ none → (cache.task other).pass? ≠ none → id = other
  gated : ∀ id gate, (id, gate) ∈ cache.gates.waiting →
    (cache.task id).state = .waiting (.gate gate)
  waits : ∀ id gate, (cache.task id).state = .waiting (.gate gate) → (cache.task id).pass? ≠ none
  ready : ∀ id ∈ cache.ready, id < cache.tasks.size

/-- The running task has the lock. -/
structure Owned (cache : ClientCache) (id : TaskId) : Prop extends Guarded cache where
  running : (cache.task id).state = .running
  held : cache.held = true
  alone : ∀ other, (cache.task other).pass? = none

/-- Who has the lock is a matter of the queue, the gates, and what the tasks are doing. -/
theorem Guarded.of_same
    {cache after : ClientCache}
    (h : Guarded cache)
    (hqueue : after.queue = cache.queue)
    (hheld : after.held = cache.held)
    (hgates : after.gates.waiting = cache.gates.waiting)
    (hstate : ∀ id, (after.task id).state = (cache.task id).state)
    (hpoint : ∀ id, (after.task id).point = (cache.task id).point)
    (hready : ∀ id ∈ after.ready, id < after.tasks.size) :
    Guarded after := by
  have hpass : ∀ id, (after.task id).pass? = (cache.task id).pass? := by
    intro id
    exact CacheTask.pass?_congr (hpoint id) (by rw [CacheTask.isPaused, CacheTask.isPaused, hstate])
  have hholds : ∀ id ticket, (after.task id).Holds ticket ↔ (cache.task id).Holds ticket := by
    intro id ticket
    cases ticket <;> simp only [CacheTask.Holds, hstate]
  refine ⟨?_, ?_, ?_, ?_, ?_, ?_, ?_, ?_, ?_, hready⟩
  · simpa only [hqueue, hpoint, hholds] using h.queued
  · simpa only [hqueue] using h.nodup
  · simpa only [hqueue] using h.first
  · simpa only [hqueue, hheld] using h.free
  · simpa only [hqueue, hstate, hpoint] using h.granted
  · simpa only [hheld, hpass] using h.holds
  · simpa only [hpass] using h.single
  · simpa only [hgates, hstate] using h.gated
  · simpa only [hstate, hpass] using h.waits

theorem Guarded.congr
    {cache after : ClientCache}
    (h : Guarded cache)
    (hqueue : after.queue = cache.queue)
    (hheld : after.held = cache.held)
    (htasks : after.tasks = cache.tasks)
    (hgates : after.gates.waiting = cache.gates.waiting)
    (hready : after.ready = cache.ready) :
    Guarded after := by
  have htask := task_congr htasks
  refine h.of_same hqueue hheld hgates (fun id => by rw [htask]) (fun id => by rw [htask]) ?_
  simpa only [hready, htasks] using h.ready

theorem Owned.congr
    {cache after : ClientCache}
    {id : TaskId}
    (h : Owned cache id)
    (hqueue : after.queue = cache.queue)
    (hheld : after.held = cache.held)
    (htasks : after.tasks = cache.tasks)
    (hgates : after.gates.waiting = cache.gates.waiting)
    (hready : after.ready = cache.ready) :
    Owned after id := by
  have htask := task_congr htasks
  refine ⟨h.toGuarded.congr hqueue hheld htasks hgates hready, ?_, hheld.trans h.held, ?_⟩
  · rw [htask]
    exact h.running
  · intro other
    rw [htask]
    exact h.alone other

/-- While the lock is free nobody is closing clients. -/
theorem Guarded.alone_of_free
    {cache : ClientCache}
    (h : Guarded cache)
    (hfree : cache.held = false)
    (id : TaskId) :
    (cache.task id).pass? = none := by
  by_cases hpass : (cache.task id).pass? = none
  · exact hpass
  · have hheld := h.holds id hpass
    rw [hfree] at hheld
    cases hheld

/-- A running task neither waits for the lock nor at a gate. -/
theorem Guarded.not_mem_of_running
    {cache : ClientCache}
    {id : TaskId}
    (h : Guarded cache)
    (hrunning : (cache.task id).state = .running) :
    (∀ ticket, (id, ticket) ∉ cache.queue) ∧ ∀ gate, (id, gate) ∉ cache.gates.waiting := by
  constructor
  · intro ticket hmem
    have hpaused := (h.queued id ticket hmem).2.isPaused
    rw [CacheTask.isPaused, hrunning] at hpaused
    cases hpaused
  · intro gate hmem
    have hstate := h.gated id gate hmem
    rw [hrunning] at hstate
    cases hstate

/-- What a task does agrees with the lock and with its places in the queue and at the gates. -/
structure Placed (cache : ClientCache) (id : TaskId) : Prop where
  queued : ∀ ticket, (id, ticket) ∈ cache.queue →
    (cache.task id).point = .locking ∧ (cache.task id).Holds ticket
  free : (id, .granted) ∈ cache.queue → cache.held = false
  granted : (cache.task id).state = .ready .proceed → (cache.task id).point = .locking →
    (id, .granted) ∈ cache.queue
  pass : (cache.task id).pass? ≠ none → cache.held = true ∧
    ∀ other, (cache.task other).pass? ≠ none → other = id
  gated : ∀ gate, (id, gate) ∈ cache.gates.waiting →
    (cache.task id).state = .waiting (.gate gate)
  waits : ∀ gate, (cache.task id).state = .waiting (.gate gate) → (cache.task id).pass? ≠ none

theorem Guarded.placed
    {cache : ClientCache}
    (h : Guarded cache)
    (id : TaskId) :
    Placed cache id where
  queued := h.queued id
  free := h.free id
  granted := h.granted id
  pass hpass := ⟨h.holds id hpass, fun other hother => h.single other id hother hpass⟩
  gated := h.gated id
  waits := h.waits id

theorem Guarded.of_placed
    {cache : ClientCache}
    (hplaced : ∀ id, Placed cache id)
    (hnodup : (cache.queue.map Prod.fst).Nodup)
    (hfirst : ∀ entry ∈ cache.queue.tail, entry.2 ≠ .granted)
    (hready : ∀ id ∈ cache.ready, id < cache.tasks.size) :
    Guarded cache where
  queued id := (hplaced id).queued
  nodup := hnodup
  first := hfirst
  free id := (hplaced id).free
  granted id := (hplaced id).granted
  holds id hpass := ((hplaced id).pass hpass).1
  single id _ hpass hother := (((hplaced id).pass hpass).2 _ hother).symm
  gated id := (hplaced id).gated
  waits id := (hplaced id).waits
  ready := hready

/-- When one task changes, with its places, the others stay where they are. -/
theorem Guarded.of_change
    {cache after : ClientCache}
    {id : TaskId}
    (h : Guarded cache)
    (hheld : after.held = cache.held)
    (htask : ∀ other, other ≠ id → after.task other = cache.task other)
    (hqueue : ∀ other, other ≠ id → ∀ ticket,
      (other, ticket) ∈ after.queue ↔ (other, ticket) ∈ cache.queue)
    (hgates : ∀ other, other ≠ id → ∀ gate,
      (other, gate) ∈ after.gates.waiting → (other, gate) ∈ cache.gates.waiting)
    (hplaced : Placed after id)
    (hnodup : (after.queue.map Prod.fst).Nodup)
    (hfirst : ∀ entry ∈ after.queue.tail, entry.2 ≠ .granted)
    (hready : ∀ id ∈ after.ready, id < after.tasks.size) :
    Guarded after := by
  refine .of_placed (fun other => ?_) hnodup hfirst hready
  by_cases hne : other = id
  · exact hne ▸ hplaced
  · have hsame := htask other hne
    have hother := h.placed other
    refine ⟨?_, ?_, ?_, ?_, ?_, ?_⟩
    · intro ticket hmem
      exact hsame ▸ hother.queued ticket ((hqueue other hne ticket).mp hmem)
    · exact fun hmem => hheld.trans (hother.free ((hqueue other hne _).mp hmem))
    · intro hstate hpoint
      rw [hsame] at hstate hpoint
      exact (hqueue other hne _).mpr (hother.granted hstate hpoint)
    · intro hpass
      -- The changed task is not closing clients, for it would be the only one to do so.
      have hnone : (after.task id).pass? = none :=
        Classical.byContradiction fun hself => hne ((hplaced.pass hself).2 other hpass)
      rw [hsame] at hpass
      refine ⟨hheld.trans (hother.pass hpass).1, fun third hthird => ?_⟩
      have hthird' : third ≠ id := fun heq => hthird (heq ▸ hnone)
      exact (hother.pass hpass).2 third (htask third hthird' ▸ hthird)
    · exact fun gate hmem => hsame ▸ hother.gated gate (hgates other hne gate hmem)
    · exact fun gate hstate => hsame ▸ hother.waits gate (hsame ▸ hstate)

/-- A task may change as long as it still fits its place in the queue or at a gate. -/
theorem Guarded.updateTask
    {cache : ClientCache}
    {id : TaskId}
    {change : CacheTask → CacheTask}
    (h : Guarded cache)
    (hid : id < cache.tasks.size)
    (hqueue : ∀ ticket, (id, ticket) ∈ cache.queue →
      (change (cache.task id)).point = .locking ∧ (change (cache.task id)).Holds ticket)
    (hgranted : (change (cache.task id)).state = .ready .proceed →
      (change (cache.task id)).point = .locking → (id, .granted) ∈ cache.queue)
    (hpass : (change (cache.task id)).pass? ≠ none → cache.held = true ∧
      ∀ other, (cache.task other).pass? ≠ none → other = id)
    (hgates : ∀ gate, (id, gate) ∈ cache.gates.waiting →
      (change (cache.task id)).state = .waiting (.gate gate))
    (hwaits : ∀ gate, (change (cache.task id)).state = .waiting (.gate gate) →
      (change (cache.task id)).pass? ≠ none) :
    Guarded (cache.updateTask id change) := by
  have hself := task_update_self hid change
  have hother : ∀ other, other ≠ id →
      (cache.updateTask id change).task other = cache.task other :=
    fun other hne => task_update_of_ne hne change
  have hsize : (cache.updateTask id change).tasks.size = cache.tasks.size := Array.size_modify
  refine h.of_change rfl hother (fun _ _ _ => Iff.rfl) (fun _ _ _ hmem => hmem) ?_ h.nodup h.first
    fun other hmem => hsize ▸ h.ready other hmem
  refine ⟨hself ▸ hqueue, h.free id, hself ▸ hgranted, fun hpassing => ?_, hself ▸ hgates,
    hself ▸ hwaits⟩
  have hheld := hpass (hself ▸ hpassing)
  exact ⟨hheld.1, fun other hpassing' => Classical.byContradiction fun hne =>
    hne (hheld.2 other (hother other hne ▸ hpassing'))⟩

/-- The running task is neither in the queue nor at a gate, so it may become whatever needs no place
there. -/
theorem Guarded.updateRunning
    {cache : ClientCache}
    {id : TaskId}
    {change : CacheTask → CacheTask}
    (h : Guarded cache)
    (hrunning : (cache.task id).state = .running)
    (hready : (change (cache.task id)).state ≠ .ready .proceed)
    (hpass : (change (cache.task id)).pass? ≠ none → cache.held = true ∧
      ∀ other, (cache.task other).pass? ≠ none → other = id)
    (hwaits : ∀ gate, (change (cache.task id)).state = .waiting (.gate gate) →
      (change (cache.task id)).pass? ≠ none) :
    Guarded (cache.updateTask id change) := by
  have hout := h.not_mem_of_running hrunning
  have hid := lt_size_of_state hrunning (by simp)
  exact h.updateTask hid (fun ticket hmem => absurd hmem (hout.1 ticket))
    (fun hstate => absurd hstate hready) hpass (fun gate hmem => absurd hmem (hout.2 gate)) hwaits

/-! ### What the running task may do -/

/-- The running task ends. -/
theorem Guarded.finish
    {cache : ClientCache}
    {id : TaskId}
    (h : Guarded cache)
    (hrunning : (cache.task id).state = .running)
    (outcome : CacheOutcome) :
    Guarded (cache.finish id outcome) := by
  have hended : Guarded (cache.updateTask id fun task => { task with state := .ended outcome }) :=
    h.updateRunning hrunning (by simp)
      (fun hpass => absurd (CacheTask.pass?_of_not_isPaused rfl) hpass) (by simp)
  exact hended.congr rfl rfl rfl rfl rfl

theorem mem_tail_append
    {α : Type}
    {list : List α}
    {last item : α}
    (h : item ∈ (list ++ [last]).tail) :
    item ∈ list.tail ∨ item = last := by
  cases list with
  | nil => cases h
  | cons first rest =>
      rcases List.mem_append.mp h with hrest | hlast
      · exact Or.inl hrest
      · exact Or.inr (List.mem_singleton.mp hlast)

/-- The running task waits for the lock behind the others. -/
theorem Guarded.park
    {cache : ClientCache}
    {id : TaskId}
    (h : Guarded cache)
    (hrunning : (cache.task id).state = .running) :
    Guarded ({ cache with queue := cache.queue ++ [(id, Ticket.waiting)] }.park id .lock
        .locking) := by
  have hout := h.not_mem_of_running hrunning
  have hid := lt_size_of_state hrunning (by simp)
  have hparked : Guarded (cache.updateTask id fun task =>
      { task with state := .waiting .lock, point := .locking }) :=
    h.updateRunning hrunning (by simp) (fun hpass => absurd rfl hpass) (by simp)
  refine ⟨?_, ?_, ?_, ?_, ?_, hparked.holds, hparked.single, hparked.gated, hparked.waits,
    hparked.ready⟩
  · intro other ticket hmem
    rcases List.mem_append.mp hmem with hold | hnew
    · exact hparked.queued other ticket hold
    · obtain ⟨rfl, rfl⟩ := Prod.mk.inj (List.mem_singleton.mp hnew)
      have hself := task_update_self hid fun task =>
        { task with state := TaskState.waiting Place.lock, point := Progression.locking }
      exact ⟨congrArg CacheTask.point hself, congrArg CacheTask.state hself⟩
  · change ((cache.queue ++ [(id, Ticket.waiting)]).map Prod.fst).Nodup
    rw [List.map_append]
    refine List.nodup_append.mpr ⟨h.nodup, by simp, ?_⟩
    intro other hmem last hlast
    cases List.mem_singleton.mp hlast
    obtain ⟨entry, hentry, rfl⟩ := List.mem_map.mp hmem
    intro heq
    have hsame : entry = (id, entry.2) := Prod.ext heq rfl
    exact hout.1 entry.2 (hsame ▸ hentry)
  · intro entry hmem
    rcases mem_tail_append hmem with hold | rfl
    · exact h.first entry hold
    · exact Ticket.noConfusion
  · intro other hmem
    rcases List.mem_append.mp hmem with hold | hnew
    · exact h.free other hold
    · cases List.mem_singleton.mp hnew
  · intro other hstate hpoint
    exact List.mem_append_left _ (hparked.granted other hstate hpoint)

/-- Whoever waits for the lock leaves those who close clients to it. -/
theorem spares_park
    {cache : ClientCache}
    {id : TaskId}
    (hrunning : (cache.task id).state = .running) :
    Spares cache ({ cache with queue := cache.queue ++ [(id, Ticket.waiting)] }.park id .lock
      .locking) := by
  refine ⟨rfl, rfl, rfl, fun other => ?_, keepsJobs_park _ id .lock .locking⟩
  by_cases hsame : other = id
  · subst hsame
    have hself : ({ cache with queue := cache.queue ++ [(other, Ticket.waiting)] }.park other
        .lock .locking).task other =
          { cache.task other with state := .waiting .lock, point := .locking } :=
      task_update_self (lt_size_of_state hrunning (by simp)) _
    rw [hself, CacheTask.pass?_of_running hrunning]
    rfl
  · exact congrArg CacheTask.pass? (task_update_of_ne hsame _)

/-- The running task takes the lock, which is free and was not granted to anybody. -/
theorem Guarded.take
    {cache : ClientCache}
    {id : TaskId}
    (h : Guarded cache)
    (hrunning : (cache.task id).state = .running)
    (hfree : cache.held = false)
    (hgranted : ∀ other, (other, .granted) ∉ cache.queue) :
    Owned { cache with held := true } id := by
  have halone := h.alone_of_free hfree
  refine ⟨⟨h.queued, h.nodup, h.first, ?_, h.granted, ?_, h.single, h.gated, h.waits, h.ready⟩,
    hrunning, rfl, halone⟩
  · exact fun other hmem => absurd hmem (hgranted other)
  · exact fun other hpass => rfl

/-- The running task takes a lock that nobody has, when those in the queue have given up. -/
theorem Guarded.take_of_free
    {cache : ClientCache}
    {id : TaskId}
    (h : Guarded cache)
    (hrunning : (cache.task id).state = .running)
    (hfree : (!cache.held && cache.queue.all (·.2 = .withdrawn)) = true) :
    Owned { cache with held := true } id := by
  simp only [Bool.and_eq_true, Bool.not_eq_true', List.all_eq_true, decide_eq_true_eq] at hfree
  refine h.take hrunning hfree.1 fun other hmem => ?_
  cases hfree.2 _ hmem

theorem lt_size_of_mem_rouse
    {cache : ClientCache}
    {id : TaskId}
    {signal : Signal}
    (h : ∀ other ∈ cache.ready, other < cache.tasks.size)
    (hid : id < cache.tasks.size) :
    ∀ other ∈ (cache.rouse id signal).ready, other < (cache.rouse id signal).tasks.size := by
  intro other hmem
  have hsize : (cache.rouse id signal).tasks.size = cache.tasks.size := Array.size_modify
  rw [hsize]
  rcases List.mem_append.mp hmem with hold | hnew
  · exact h other hold
  · exact List.mem_singleton.mp hnew ▸ hid

/-- Being granted the lock does not take a task into the middle of a closing. -/
theorem Guarded.spares_wakeFirst
    {cache : ClientCache}
    (h : Guarded cache) :
    Spares cache cache.wakeFirst := by
  unfold ClientCache.wakeFirst
  split
  · rename_i id rest hqueue
    have hstate := (h.queued id .waiting (hqueue ▸ List.mem_cons_self)).2
    have hpass : CacheTask.pass? { cache.task id with state := .ready .proceed } =
        (cache.task id).pass? :=
      CacheTask.pass?_congr rfl (CacheTask.Holds.isPaused hstate).symm
    have hqueued : Spares cache { cache with queue := (id, .granted) :: rest } :=
      .of_tasks_eq rfl rfl rfl rfl
    exact hqueued.trans (spares_rouse (lt_size_of_state hstate (by simp)) hpass)
  · exact Spares.refl cache

/-- The first task in the queue is granted a lock that is free. -/
theorem Guarded.wakeFirst
    {cache : ClientCache}
    (h : Guarded cache)
    (hfree : cache.held = false) :
    Guarded cache.wakeFirst := by
  have hpass : ∀ other, (cache.wakeFirst.task other).pass? = none :=
    fun other => (h.spares_wakeFirst.pass other).trans (h.alone_of_free hfree other)
  unfold ClientCache.wakeFirst at hpass ⊢
  split at hpass
  · rename_i id rest hqueue
    obtain ⟨hpoint, hstate⟩ := h.queued id .waiting (hqueue ▸ List.mem_cons_self)
    have hid := lt_size_of_state hstate (by simp)
    have hself := task_update_self hid fun task => { task with state := .ready .proceed }
    have hnodup := h.nodup
    have hfirst := h.first
    rw [hqueue] at hnodup hfirst
    have hrest : ∀ ticket, (id, ticket) ∉ rest := fun ticket hmem =>
      (List.nodup_cons.mp hnodup).1 (List.mem_map.mpr ⟨_, hmem, rfl⟩)
    have hplaced :
        Placed ({ cache with queue := (id, .granted) :: rest }.rouse id .proceed) id := by
      refine ⟨fun ticket hmem => ?_, fun _ => hfree, fun _ _ => List.mem_cons_self,
        fun hpassing => absurd (hpass id) hpassing, fun gate hmem => ?_, fun gate hwaits => ?_⟩
      · rcases List.mem_cons.mp hmem with heq | hold
        · obtain ⟨-, rfl⟩ := Prod.mk.inj heq
          exact ⟨(congrArg CacheTask.point hself).trans hpoint,
            Or.inl (congrArg CacheTask.state hself)⟩
        · exact absurd hold (hrest ticket)
      · cases hstate.symm.trans (h.gated id gate hmem)
      · cases (congrArg CacheTask.state hself).symm.trans hwaits
    refine h.of_change rfl (fun other hne => task_update_of_ne hne _) ?_ (fun _ _ _ hmem => hmem)
      hplaced hnodup hfirst ?_
    · intro other hne ticket
      rw [hqueue]
      simp [rouse, ClientCache.updateTask, hne]
    · exact lt_size_of_mem_rouse h.ready hid
  · exact h

/-- A running task stays so when the lock is granted to another one. -/
theorem Guarded.running_wakeFirst
    {cache : ClientCache}
    {id : TaskId}
    (h : Guarded cache)
    (hrunning : (cache.task id).state = .running) :
    (cache.wakeFirst.task id) = cache.task id := by
  unfold ClientCache.wakeFirst
  split
  · rename_i other rest hqueue
    have hne : id ≠ other := by
      rintro rfl
      exact (h.not_mem_of_running hrunning).1 .waiting (hqueue ▸ List.mem_cons_self)
    exact task_update_of_ne hne _
  · rfl

/-- Nobody has the lock that the running task gave back. -/
theorem Owned.freed
    {cache : ClientCache}
    {id : TaskId}
    (h : Owned cache id) :
    Guarded { cache with held := false } := by
  refine ⟨h.queued, h.nodup, h.first, fun _ _ => rfl, h.granted, ?_, h.single, h.gated, h.waits,
    h.ready⟩
  exact fun other hpass => absurd (h.alone other) hpass

/-- The running task gives the lock back. -/
theorem Owned.release
    {cache : ClientCache}
    {id : TaskId}
    (h : Owned cache id) :
    Guarded cache.release ∧ cache.release.task id = cache.task id :=
  ⟨h.freed.wakeFirst rfl, h.freed.running_wakeFirst h.running⟩

theorem Owned.running_release
    {cache : ClientCache}
    {id : TaskId}
    (h : Owned cache id) :
    (cache.release.task id).state = .running := by
  rw [h.release.2]
  exact h.running

/-- The running task waits for a client to close, and keeps the lock. -/
theorem Owned.wait
    {cache : ClientCache}
    {id : TaskId}
    (h : Owned cache id)
    (gate : String)
    (client : ClientId)
    (rest : List (String × ClientId)) :
    Guarded ({ cache with gates := cache.gates.wait id gate }.park id (.gate gate)
      (.closing client rest)) := by
  have hid := lt_size_of_state h.running (by simp)
  have hparked : Guarded (cache.updateTask id fun task =>
      { task with state := .waiting (.gate gate), point := .closing client rest }) := by
    refine h.updateRunning h.running (by simp) ?_ ?_
    · exact fun _ => ⟨h.held, fun other hpass => absurd (h.alone other) hpass⟩
    · intro gate _ hpass
      cases hpass
  refine ⟨hparked.queued, hparked.nodup, hparked.first, hparked.free, hparked.granted,
    hparked.holds, hparked.single, ?_, hparked.waits, hparked.ready⟩
  intro other place hmem
  rcases List.mem_append.mp hmem with hold | hnew
  · exact hparked.gated other place hold
  · obtain ⟨rfl, rfl⟩ := Prod.mk.inj (List.mem_singleton.mp hnew)
    exact congrArg CacheTask.state (task_update_self hid fun task =>
      { task with state := TaskState.waiting (Place.gate place), point := .closing client rest })

/-! ### How a task goes on -/

/-- The cache in which a task that was ready is running, and is no longer in the queue. -/
def leaving (cache : ClientCache) (id : TaskId) : ClientCache :=
  (cache.updateTask id fun task => { task with state := .running }).leaveQueue id

theorem keepsJobs_resume (cache : ClientCache) (id : TaskId) :
    KeepsJobs cache (cache.updateTask id fun task => { task with state := .running }) :=
  have hchange : ∀ task : CacheTask, { task with state := .running }.job = task.job := fun _ => rfl
  keepsJobs_updateTask cache id hchange

/-- When a task goes on, the others are in the middle of the same closings as before. -/
theorem pass?_of_resume
    {cache : ClientCache}
    {id other : TaskId}
    {pass : ClientId × List (String × ClientId)}
    (hid : id < cache.tasks.size)
    (h : ((cache.updateTask id fun task => { task with state := .running }).task other).pass? =
      some pass) :
    (cache.task other).pass? = some pass := by
  by_cases hsame : other = id
  · subst hsame
    rw [CacheTask.pass?_of_running (congrArg CacheTask.state (task_update_self hid _))] at h
    cases h
  · exact (congrArg CacheTask.pass? (task_update_of_ne hsame _)).symm.trans h

theorem mem_tail_of_mem_tail_filter
    {α : Type}
    {p : α → Bool}
    {list : List α}
    {item : α}
    (h : item ∈ (list.filter p).tail) :
    item ∈ list.tail := by
  cases list with
  | nil => exact absurd h List.not_mem_nil
  | cons first rest =>
      rw [List.filter_cons] at h
      split at h
      · exact (List.mem_filter.mp h).1
      · exact (List.mem_filter.mp (List.mem_of_mem_tail h)).1

theorem Guarded.leaving
    {cache : ClientCache}
    {id : TaskId}
    {signal : Signal}
    (h : Guarded cache)
    (hid : id < cache.tasks.size)
    (hstate : (cache.task id).state = .ready signal) :
    Guarded (cache.leaving id) ∧ ((cache.leaving id).task id).state = .running := by
  have hself : (cache.leaving id).task id = { cache.task id with state := .running } :=
    task_update_self hid _
  have hother : ∀ other, other ≠ id → (cache.leaving id).task other = cache.task other :=
    fun other hne => task_update_of_ne hne _
  have hsize : (cache.leaving id).tasks.size = cache.tasks.size := Array.size_modify
  have hqueue : ∀ entry,
      entry ∈ (cache.leaving id).queue ↔ entry ∈ cache.queue ∧ entry.1 ≠ id := by
    intro entry
    simp [ClientCache.leaving, leaveQueue, ClientCache.updateTask]
  have hrunning : ((cache.leaving id).task id).state = .running := congrArg CacheTask.state hself
  have hplaced : Placed (cache.leaving id) id := by
    refine ⟨fun ticket hmem => ?_, fun hmem => ?_, fun hproceed => ?_, fun hpass => ?_,
      fun gate hmem => ?_, fun gate hwaits => ?_⟩
    · exact absurd rfl ((hqueue _).mp hmem).2
    · exact absurd rfl ((hqueue _).mp hmem).2
    · cases hrunning.symm.trans hproceed
    · exact absurd (CacheTask.pass?_of_running hrunning) hpass
    · cases hstate.symm.trans (h.gated id gate hmem)
    · cases hrunning.symm.trans hwaits
  refine ⟨h.of_change rfl hother (fun other hne ticket => ?_) (fun _ _ _ hmem => hmem) hplaced ?_ ?_
    fun other hmem => hsize ▸ h.ready other hmem, hrunning⟩
  · exact (hqueue _).trans (and_iff_left hne)
  · exact h.nodup.sublist (List.filter_sublist.map Prod.fst)
  · exact fun entry hmem => h.first entry (mem_tail_of_mem_tail_filter hmem)

/-- A task that does not stand before the lock was not in the queue. -/
theorem Guarded.leaving_eq
    {cache : ClientCache}
    {id : TaskId}
    (h : Guarded cache)
    (hout : (cache.task id).point ≠ .locking ∨ (cache.task id).isPaused = false) :
    cache.leaving id = cache.updateTask id fun task => { task with state := .running } := by
  have hothers : ∀ entry ∈ cache.queue, decide (entry.1 ≠ id) = true := by
    rintro ⟨other, ticket⟩ hmem
    refine decide_eq_true ?_
    rintro rfl
    obtain ⟨hlocking, hholds⟩ := h.queued other ticket hmem
    rcases hout with hne | hpaused
    · exact hne hlocking
    · rw [hholds.isPaused] at hpaused
      cases hpaused
  unfold ClientCache.leaving leaveQueue
  exact congrArg (fun queue => { cache.updateTask id fun task =>
    { task with state := .running } with queue := queue }) (List.filter_eq_self.mpr hothers)

/-- A task that does not stand before the lock goes on. -/
theorem Guarded.resume
    {cache : ClientCache}
    {id : TaskId}
    {signal : Signal}
    (h : Guarded cache)
    (hid : id < cache.tasks.size)
    (hstate : (cache.task id).state = .ready signal)
    (hout : (cache.task id).point ≠ .locking ∨ (cache.task id).isPaused = false) :
    Guarded (cache.updateTask id fun task => { task with state := .running }) := by
  rw [← h.leaving_eq hout]
  exact (h.leaving hid hstate).1

/-- The first task that is ready is taken from the others. -/
theorem Guarded.pop
    {cache : ClientCache}
    {id : TaskId}
    {rest : List TaskId}
    (h : Guarded cache)
    (hready : cache.ready = id :: rest) :
    Guarded { cache with ready := rest } ∧ id < cache.tasks.size := by
  refine ⟨h.of_same rfl rfl rfl (fun _ => rfl) (fun _ => rfl) fun other hmem => ?_, ?_⟩
  · exact h.ready other (hready ▸ List.mem_cons_of_mem id hmem)
  · exact h.ready id (hready ▸ List.mem_cons_self)

/-- A task that was granted the lock takes it. -/
theorem Guarded.owned_of_granted
    {cache : ClientCache}
    {id : TaskId}
    (h : Guarded cache)
    (hstate : (cache.task id).state = .ready .proceed)
    (hpoint : (cache.task id).point = .locking) :
    Owned { cache.leaving id with held := true } id := by
  have hid := lt_size_of_state hstate (by simp)
  have hmem := h.granted id hstate hpoint
  obtain ⟨hleaving, hrunning⟩ := h.leaving hid hstate
  refine hleaving.take hrunning (h.free id hmem) fun other hother => ?_
  have hold : (other, Ticket.granted) ∈ cache.queue := (List.mem_filter.mp hother).1
  have hne : other ≠ id := of_decide_eq_true (List.mem_filter.mp hother).2
  -- The first task in the queue is the only one that can have been granted the lock.
  cases hqueue : cache.queue with
  | nil =>
      rw [hqueue] at hmem
      cases hmem
  | cons first rest =>
      have hfirst := h.first
      rw [hqueue] at hmem hold hfirst
      rcases List.mem_cons.mp hmem with rfl | hmem
      · rcases List.mem_cons.mp hold with heq | hold
        · exact hne (Prod.mk.inj heq).1
        · exact hfirst _ hold rfl
      · exact hfirst _ hmem rfl

/-- A task in the middle of a closing goes on, and has the lock. -/
theorem Guarded.owned_of_pass
    {cache : ClientCache}
    {id : TaskId}
    {signal : Signal}
    (h : Guarded cache)
    (hstate : (cache.task id).state = .ready signal)
    (hpass : (cache.task id).pass? ≠ none) :
    Owned (cache.updateTask id fun task => { task with state := .running }) id := by
  have hid := lt_size_of_pass hpass
  have hout : (cache.task id).point ≠ .locking := fun hlocking =>
    hpass (by rw [CacheTask.pass?, hlocking])
  refine ⟨h.resume hid hstate (Or.inl hout), congrArg CacheTask.state (task_update_self hid _),
    h.holds id hpass, fun other => ?_⟩
  by_cases hsame : other = id
  · subst hsame
    exact CacheTask.pass?_of_running (congrArg CacheTask.state (task_update_self hid _))
  · refine Option.eq_none_iff_forall_ne_some.mpr fun pass hsome => ?_
    have hnone : (cache.task other).pass? ≠ none := by simp [pass?_of_resume hid hsome]
    exact hsame (h.single other id hnone hpass)

end ClientCache
end TraceArchive
