import TraceArchive.Proofs.Client.Lock

/-!
# What happens to the client cache from outside

New tasks come, tasks are canceled, and gates are opened.  None of this gives the lock to anybody,
or takes it from the task that has it.

* `Guarded.openGate`, `Guarded.cancelTask`, `Guarded.spawn`: who has the lock stays the same.
* `guarded_start`: nobody has the lock of an empty cache.
-/

set_option autoImplicit false

namespace TraceArchive
namespace ClientCache

theorem Guarded.appendReady
    {cache : ClientCache}
    {id : TaskId}
    (h : Guarded cache)
    (hid : id < cache.tasks.size) :
    Guarded { cache with ready := cache.ready ++ [id] } := by
  refine ⟨h.queued, h.nodup, h.first, h.free, h.granted, h.holds, h.single, h.gated, h.waits, ?_⟩
  intro other hmem
  rcases List.mem_append.mp hmem with hold | hnew
  · exact h.ready other hold
  · exact List.mem_singleton.mp hnew ▸ hid

/-- A task in the middle of a closing that no longer waits at a gate is ready. -/
theorem Guarded.rouse
    {cache : ClientCache}
    {id : TaskId}
    (h : Guarded cache)
    (hpass : (cache.task id).pass? ≠ none)
    (hgates : ∀ gate, (id, gate) ∉ cache.gates.waiting)
    {signal : Signal}
    (hsignal : signal = .proceed ∨ signal = .interrupt) :
    Guarded (cache.rouse id signal) ∧ Spares cache (cache.rouse id signal) := by
  have hid := lt_size_of_pass hpass
  obtain ⟨⟨client, rest⟩, hsome⟩ := Option.ne_none_iff_exists'.mp hpass
  obtain ⟨hpoint, hpaused⟩ := CacheTask.pass?_eq_some hsome
  have hkept : CacheTask.pass? { cache.task id with state := .ready signal } =
      (cache.task id).pass? := by
    refine CacheTask.pass?_congr rfl (Eq.trans ?_ hpaused.symm)
    rcases hsignal with rfl | rfl <;> rfl
  constructor
  · refine (h.updateTask hid ?_ ?_ ?_ ?_ ?_).appendReady (Array.size_modify.symm ▸ hid)
    · intro ticket hmem
      have hlocking := (h.queued id ticket hmem).1
      rw [hpoint] at hlocking
      cases hlocking
    · intro _ hlocking
      cases hpoint.symm.trans hlocking
    · exact fun _ => ⟨h.holds id hpass, fun other hother => h.single other id hother hpass⟩
    · exact fun gate hmem => absurd hmem (hgates gate)
    · intro gate hstate
      cases hstate
  · exact spares_rouse hid hkept

theorem Guarded.foldl_rouse
    {cache : ClientCache}
    (h : Guarded cache)
    (woken : List TaskId)
    (hwoken : ∀ id ∈ woken, (cache.task id).pass? ≠ none ∧
      ∀ gate, (id, gate) ∉ cache.gates.waiting) :
    Guarded (woken.foldl (fun cache id => cache.rouse id .proceed) cache) ∧
      Spares cache (woken.foldl (fun cache id => cache.rouse id .proceed) cache) := by
  induction woken generalizing cache with
  | nil => exact ⟨h, Spares.refl cache⟩
  | cons id rest ih =>
      obtain ⟨hpass, hgates⟩ := hwoken id List.mem_cons_self
      obtain ⟨hroused, hspares⟩ := h.rouse hpass hgates (Or.inl rfl)
      have hrest : ∀ other ∈ rest, ((cache.rouse id .proceed).task other).pass? ≠ none ∧
          ∀ gate, (other, gate) ∉ (cache.rouse id .proceed).gates.waiting := by
        intro other hmem
        rw [hspares.pass]
        exact hwoken other (List.mem_cons_of_mem id hmem)
      obtain ⟨hall, hlater⟩ := ih hroused hrest
      exact ⟨hall, hspares.trans hlater⟩

/-- The tasks that waited at a gate are ready when it is opened. -/
theorem Guarded.openGate
    {cache : ClientCache}
    (h : Guarded cache)
    (gate : String) :
    Guarded (cache.openGate gate) ∧ Spares cache (cache.openGate gate) := by
  have hopened : Guarded { cache with gates := cache.gates.openGate gate } := by
    refine ⟨h.queued, h.nodup, h.first, h.free, h.granted, h.holds, h.single, ?_, h.waits, h.ready⟩
    exact fun id place hmem => h.gated id place (List.mem_filter.mp hmem).1
  have hwoken : ∀ id ∈ cache.gates.waitingAt gate, (cache.task id).pass? ≠ none ∧
      ∀ place, (id, place) ∉ (cache.gates.openGate gate).waiting := by
    intro id hmem
    obtain ⟨⟨other, place⟩, hentry, rfl⟩ := List.mem_map.mp hmem
    have hwaiting := List.mem_filter.mp hentry
    obtain rfl : place = gate := of_decide_eq_true hwaiting.2
    have hstate := h.gated other place hwaiting.1
    refine ⟨h.waits other place hstate, fun place' hmem' => ?_⟩
    have hleft := List.mem_filter.mp hmem'
    have hstate' := h.gated other place' hleft.1
    cases hstate.symm.trans hstate'
    exact of_decide_eq_true hleft.2 rfl
  obtain ⟨hguarded, hspares⟩ := hopened.foldl_rouse (cache.gates.waitingAt gate) hwoken
  have hgates : Spares cache { cache with gates := cache.gates.openGate gate } :=
    .of_tasks_eq rfl rfl rfl rfl
  exact ⟨hguarded, hgates.trans hspares⟩

/-- A task that was canceled before its start is given up, and any other is interrupted. -/
theorem Guarded.signal
    {cache : ClientCache}
    {id : TaskId}
    {signal : Signal}
    (h : Guarded cache)
    (hid : id < cache.tasks.size)
    (hstate : (cache.task id).state = .ready signal)
    (after : Signal)
    (hafter : after = .abandon ∧ signal = .start ∨
      after = .interrupt ∧ (signal = .proceed ∨ signal = .interrupt)) :
    Guarded (cache.updateTask id fun task => { task with state := .ready after }) ∧
      Spares cache (cache.updateTask id fun task => { task with state := .ready after }) := by
  have hkept : CacheTask.pass? { cache.task id with state := .ready after } =
      (cache.task id).pass? := by
    refine CacheTask.pass?_congr rfl ?_
    rw [CacheTask.isPaused, CacheTask.isPaused, hstate]
    rcases hafter with ⟨rfl, rfl⟩ | ⟨rfl, rfl | rfl⟩ <;> rfl
  refine ⟨h.updateTask hid ?_ ?_ ?_ ?_ ?_, spares_updateTask hid (fun _ => rfl) hkept⟩
  · intro ticket hmem
    obtain ⟨hpoint, hholds⟩ := h.queued id ticket hmem
    refine ⟨hpoint, ?_⟩
    rcases hafter with ⟨rfl, rfl⟩ | ⟨rfl, _⟩
    · cases ticket <;> simp [CacheTask.Holds, hstate] at hholds
    · cases ticket with
      | waiting => simp [CacheTask.Holds, hstate] at hholds
      | granted => exact Or.inr rfl
      | withdrawn => rfl
  · intro hproceed
    rcases hafter with ⟨rfl, _⟩ | ⟨rfl, _⟩ <;> cases hproceed
  · intro hpass
    rw [hkept] at hpass
    exact ⟨h.holds id hpass, fun other hother => h.single other id hother hpass⟩
  · intro gate hmem
    have hwaits := h.gated id gate hmem
    rw [hstate] at hwaits
    cases hwaits
  · intro gate hwaits
    cases hwaits

theorem mem_withdraw_self
    {cache : ClientCache}
    {id : TaskId}
    {ticket : Ticket}
    (h : (id, ticket) ∈ (cache.withdraw id).queue) :
    ticket = .withdrawn ∧ ∃ old, (id, old) ∈ cache.queue := by
  obtain ⟨⟨other, old⟩, hold, heq⟩ := List.mem_map.mp h
  by_cases hsame : other = id
  · rw [if_pos hsame] at heq
    exact ⟨(Prod.mk.inj heq).2.symm, old, hsame ▸ hold⟩
  · rw [if_neg hsame] at heq
    exact absurd (Prod.mk.inj heq).1 hsame

theorem mem_withdraw_of_ne
    {cache : ClientCache}
    {id other : TaskId}
    {ticket : Ticket}
    (hne : other ≠ id) :
    (other, ticket) ∈ (cache.withdraw id).queue ↔ (other, ticket) ∈ cache.queue := by
  constructor
  · intro hmem
    obtain ⟨entry, hold, heq⟩ := List.mem_map.mp hmem
    by_cases hsame : entry.1 = id
    · rw [if_pos hsame] at heq
      exact absurd (Prod.mk.inj heq).1.symm hne
    · rw [if_neg hsame] at heq
      exact heq ▸ hold
  · exact fun hold => List.mem_map.mpr ⟨_, hold, if_neg hne⟩

theorem keys_withdraw (cache : ClientCache) (id : TaskId) :
    (cache.withdraw id).queue.map Prod.fst = cache.queue.map Prod.fst := by
  refine (List.map_map).trans (List.map_congr_left fun entry _ => ?_)
  by_cases hsame : entry.1 = id
  · simp [hsame]
  · simp [hsame]

/-- A task that waited for the lock is interrupted, and keeps its place until it goes on. -/
theorem Guarded.withdraw
    {cache : ClientCache}
    {id : TaskId}
    (h : Guarded cache)
    (hstate : (cache.task id).state = .waiting .lock) :
    Guarded ((cache.withdraw id).rouse id .interrupt) ∧
      Spares cache ((cache.withdraw id).rouse id .interrupt) := by
  have hid := lt_size_of_state hstate (by simp)
  have hself : ((cache.withdraw id).rouse id .interrupt).task id =
      { cache.task id with state := .ready .interrupt } := task_update_self hid _
  have hother : ∀ other, other ≠ id →
      ((cache.withdraw id).rouse id .interrupt).task other = cache.task other :=
    fun other hne => task_update_of_ne hne _
  have hkept : CacheTask.pass? { cache.task id with state := .ready .interrupt } =
      (cache.task id).pass? := by
    refine CacheTask.pass?_congr rfl ?_
    rw [CacheTask.isPaused, CacheTask.isPaused, hstate]
  have hqueue : Spares cache (cache.withdraw id) := .of_tasks_eq rfl rfl rfl rfl
  have hrouse : Spares (cache.withdraw id) ((cache.withdraw id).rouse id .interrupt) :=
    spares_rouse hid hkept
  have hspares := hqueue.trans hrouse
  have hplaced : Placed ((cache.withdraw id).rouse id .interrupt) id := by
    refine ⟨fun ticket hmem => ?_, fun hmem => ?_, fun hproceed => ?_, fun hpass => ?_,
      fun gate hmem => ?_, fun gate hwaits => ?_⟩
    · obtain ⟨rfl, old, hold⟩ := mem_withdraw_self hmem
      rw [hself]
      exact ⟨(h.queued id old hold).1, rfl⟩
    · cases (mem_withdraw_self hmem).1
    · cases (congrArg CacheTask.state hself).symm.trans hproceed
    · rw [hspares.pass] at hpass
      refine ⟨h.holds id hpass, fun other hother => ?_⟩
      exact h.single other id (hspares.pass other ▸ hother) hpass
    · cases hstate.symm.trans (h.gated id gate hmem)
    · cases (congrArg CacheTask.state hself).symm.trans hwaits
  refine ⟨h.of_change rfl hother (fun _ hne _ => mem_withdraw_of_ne hne)
    (fun _ _ _ hmem => hmem) hplaced ?_ ?_ (lt_size_of_mem_rouse h.ready hid), hspares⟩
  · exact (keys_withdraw cache id).symm ▸ h.nodup
  · intro entry hmem
    have htail : (cache.withdraw id).queue.tail = cache.queue.tail.map fun entry =>
        if entry.1 = id then (id, .withdrawn) else entry := List.map_tail.symm
    obtain ⟨old, hold, rfl⟩ := List.mem_map.mp (htail ▸ hmem)
    split
    · exact Ticket.noConfusion
    · exact h.first old hold

/-- A task is canceled. -/
theorem Guarded.cancelTask
    {cache : ClientCache}
    {id : TaskId}
    (h : Guarded cache)
    (hid : id < cache.tasks.size) :
    Guarded (cache.cancelTask id).2 ∧ Spares cache (cache.cancelTask id).2 := by
  unfold ClientCache.cancelTask
  cases hstate : (cache.task id).state with
  | ended outcome => exact ⟨h, Spares.refl cache⟩
  | running => exact ⟨h, Spares.refl cache⟩
  | ready signal =>
      cases signal with
      | start => exact h.signal hid hstate .abandon (Or.inl ⟨rfl, rfl⟩)
      | abandon => exact ⟨h, Spares.refl cache⟩
      | proceed => exact h.signal hid hstate .interrupt (Or.inr ⟨rfl, Or.inl rfl⟩)
      | interrupt => exact h.signal hid hstate .interrupt (Or.inr ⟨rfl, Or.inr rfl⟩)
  | waiting place =>
      cases place with
      | lock => exact h.withdraw hstate
      | gate gate =>
          have hforgotten : Guarded { cache with gates := cache.gates.forget id } := by
            refine ⟨h.queued, h.nodup, h.first, h.free, h.granted, h.holds, h.single, ?_, h.waits,
              h.ready⟩
            exact fun other place hmem => h.gated other place (List.mem_filter.mp hmem).1
          have hleft : ∀ place, (id, place) ∉ (cache.gates.forget id).waiting :=
            fun place hmem => of_decide_eq_true (List.mem_filter.mp hmem).2 rfl
          obtain ⟨hguarded, hspares⟩ :=
            hforgotten.rouse (h.waits id gate hstate) hleft (Or.inr rfl)
          have hgates : Spares cache { cache with gates := cache.gates.forget id } :=
            .of_tasks_eq rfl rfl rfl rfl
          exact ⟨hguarded, hgates.trans hspares⟩

theorem task_spawn
    (cache : ClientCache)
    (name : String)
    (job : Job)
    (id : TaskId) :
    (cache.spawn name job).task id =
      if id = cache.tasks.size then ⟨name, job, .ready .start, .start⟩ else cache.task id := by
  simp only [task, ClientCache.spawn, Array.getD_eq_getD_getElem?, Array.getElem?_push]
  split <;> rfl

/-- A new task does what one that does not exist counts as doing: it is about to start. -/
theorem state_spawn
    (cache : ClientCache)
    (name : String)
    (job : Job)
    (id : TaskId) :
    ((cache.spawn name job).task id).state = (cache.task id).state ∧
      ((cache.spawn name job).task id).point = (cache.task id).point := by
  rw [task_spawn]
  split
  · rename_i hid
    have hnone : ¬ id < cache.tasks.size := hid ▸ Nat.lt_irrefl _
    simp [task, Array.getD_eq_getD_getElem?, hnone, default]
  · exact ⟨rfl, rfl⟩

theorem Guarded.spawn
    {cache : ClientCache}
    (h : Guarded cache)
    (name : String)
    (job : Job) :
    Guarded (cache.spawn name job) ∧ Spares cache (cache.spawn name job) := by
  have hsame := state_spawn cache name job
  have hsize : (cache.spawn name job).tasks.size = cache.tasks.size + 1 := Array.size_push _
  refine ⟨h.of_same rfl rfl rfl (fun id => (hsame id).1) (fun id => (hsame id).2) ?_,
    rfl, rfl, rfl, fun id => ?_, fun id hid => ⟨hsize ▸ Nat.lt_succ_of_lt hid, ?_⟩⟩
  rotate_left
  · refine CacheTask.pass?_congr (hsame id).2 ?_
    rw [CacheTask.isPaused, CacheTask.isPaused, (hsame id).1]
  · rw [task_spawn, if_neg (Nat.ne_of_lt hid)]
  intro id hmem
  rw [hsize]
  rcases List.mem_append.mp hmem with hold | hnew
  · exact Nat.lt_succ_of_lt (h.ready id hold)
  · cases List.mem_singleton.mp hnew
    exact Nat.lt_succ_self _

theorem task_start
    (openings : Nat → Option CacheFailure)
    (closings : ClientId → Closing)
    (id : TaskId) :
    (start openings closings).task id = default := by
  simp [task, start]

theorem guarded_start
    (openings : Nat → Option CacheFailure)
    (closings : ClientId → Closing) :
    Guarded (start openings closings) := by
  have htask := task_start openings closings
  have hpass : ∀ id, ((start openings closings).task id).pass? = none := by
    intro id
    rw [htask]
    rfl
  have hstate : ∀ id, ((start openings closings).task id).state = .ready .start := by
    intro id
    rw [htask]
    rfl
  refine ⟨?_, List.nodup_nil, ?_, fun _ _ => rfl, ?_, ?_, ?_, ?_, ?_, ?_⟩
  · exact fun id ticket hmem => absurd hmem List.not_mem_nil
  · exact fun entry hmem => absurd hmem List.not_mem_nil
  · intro id hproceed
    rw [hstate] at hproceed
    cases hproceed
  · exact fun id hpassing => absurd (hpass id) hpassing
  · exact fun id _ hpassing => absurd (hpass id) hpassing
  · exact fun id gate hmem => absurd hmem List.not_mem_nil
  · intro id gate hwaits
    rw [hstate] at hwaits
    cases hwaits
  · exact fun id hmem => absurd hmem List.not_mem_nil

end ClientCache
end TraceArchive
