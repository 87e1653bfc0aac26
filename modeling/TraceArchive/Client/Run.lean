import TraceArchive.Client.Cache

/-!
# Running the tasks of the cache

A task runs until it waits for the lock, waits at a gate for a client to close, or ends.

* `step`, `settle`: the ready tasks go on.
* `spawn`, `cancelTask`, `openGate`: what happens to the cache from outside.
-/

set_option autoImplicit false

namespace TraceArchive
namespace ClientCache

/-- The line about a span store that is ready. -/
def readyLine (config : StoreConfig) : String :=
  "Span store ready: index=" ++ config.index ++
    " strict_trace_id=" ++ (Json.bool config.strictTraceId).literal ++
    " names_lookback=" ++ (Json.int config.namesLookback).literal

/-- A span store is set up once its client is there. -/
def finishStore
    (cache : ClientCache)
    (id : TaskId)
    (settings : Settings)
    (client : Option ClientId) :
    ClientCache :=
  match settings.storeConfig with
  | .refused issues => cache.finish id (.error (.invalidConfig issues))
  | .ok config =>
      (cache.log .info (readyLine config)).finish id (.ok (.store ⟨config, client⟩))

/-- A task has its client. -/
def deliver (cache : ClientCache) (id : TaskId) (client : ClientId) : ClientCache :=
  match (cache.task id).job with
  | .createStore settings _ => cache.finishStore id settings (some client)
  | _ => cache.finish id (.ok (.client client))

/-- A task that holds the lock gets the client for its settings, a cached one if there is one by
now. -/
def getLocked (cache : ClientCache) (id : TaskId) (settings : Settings) : ClientCache :=
  let connection := Connection.ofSettings settings
  match Entries.get? connection.key cache.entries with
  | some client => cache.release.deliver id client
  | none =>
      let announced := cache.log .info
        ("Creating " ++ connection.engine.name ++ " client for " ++ connection.account.host)
      match announced.create connection with
      | (.error failure, cache) => cache.release.finish id (.error failure)
      | (.ok client, cache) =>
          { cache with entries := Entries.put connection.key client cache.entries }.release.deliver
            id client

/-- A task that holds the lock closes clients one after the other and then empties the cache. -/
def closeAll (id : TaskId) : List (String × ClientId) → ClientCache → ClientCache
  | [], cache => { cache with entries := [] }.release.finish id (.ok .nothing)
  | (key, client) :: rest, cache =>
      let cache := (cache.log .info ("Closing client " ++ key)).note (.closing client)
      match (cache.closings client).gate.filter fun gate => !cache.gates.isOpen gate with
      | some gate =>
          { cache with gates := cache.gates.wait id gate }.park id (.gate gate)
            (.closing client rest)
      | none =>
          match (cache.closings client).failure with
          | some failure => cache.release.finish id (.error failure)
          | none => closeAll id rest (cache.note (.closed client))

/-- A client that was waited for is closed, or fails to. -/
def closeRest
    (cache : ClientCache)
    (id : TaskId)
    (client : ClientId)
    (rest : List (String × ClientId)) :
    ClientCache :=
  match (cache.closings client).failure with
  | some failure => cache.release.finish id (.error failure)
  | none => closeAll id rest (cache.note (.closed client))

/-- What a task does once it holds the lock. -/
def withLock (cache : ClientCache) (id : TaskId) : ClientCache :=
  match (cache.task id).job with
  | .get settings => cache.getLocked id settings
  | .createStore settings _ => cache.getLocked id settings
  | .close => closeAll id cache.entries cache

/-- A task takes the lock, or waits for it behind those that came before. -/
def acquire (cache : ClientCache) (id : TaskId) : ClientCache :=
  if !cache.held && cache.queue.all (·.2 = .withdrawn) then
    { cache with held := true }.withLock id
  else
    { cache with queue := cache.queue ++ [(id, Ticket.waiting)] }.park id .lock .locking

/-- A task gets the client for its settings, a cached one without the lock. -/
def getClient (cache : ClientCache) (id : TaskId) (settings : Settings) : ClientCache :=
  match Entries.get? (Connection.ofSettings settings).key cache.entries with
  | some client => cache.deliver id client
  | none => cache.acquire id

/-- A task from its start. -/
def begin (cache : ClientCache) (id : TaskId) : ClientCache :=
  match (cache.task id).job with
  | .get settings => cache.getClient id settings
  | .createStore settings clientGiven =>
      match cache.logger.setUp (some settings.logLevel) with
      | .error name => cache.finish id (.error (.unknownLevel name))
      | .ok logger =>
          let cache := { cache with logger := logger }
          if clientGiven then cache.finishStore id settings none
          else cache.getClient id settings
  | .close => cache.acquire id

/-- The queue without a task. -/
def leaveQueue (cache : ClientCache) (id : TaskId) : ClientCache :=
  { cache with queue := cache.queue.filter (·.1 ≠ id) }

/-- A task has what it waited for. -/
def proceed (cache : ClientCache) (id : TaskId) : ClientCache :=
  match (cache.task id).point with
  | .start => cache.begin id
  | .locking => { cache.leaveQueue id with held := true }.withLock id
  | .closing client rest => cache.closeRest id client rest

/-- A task is interrupted where it waited.  One that waited for a free lock leaves it to the next;
one that held the lock gives it back. -/
def interrupt (cache : ClientCache) (id : TaskId) : ClientCache :=
  let freed := match (cache.task id).point with
    | .start => cache
    | .locking =>
        let left := cache.leaveQueue id
        if left.held then left else left.wakeFirst
    | .closing _ _ => cache.release
  freed.finish id (.error .interrupted)

/-- The next task that is ready goes on until it waits or has ended. -/
def wake (cache : ClientCache) (id : TaskId) : ClientCache :=
  let running := cache.updateTask id fun task => { task with state := .running }
  match (cache.task id).state with
  | .ready .start => running.begin id
  | .ready .proceed => running.proceed id
  | .ready .interrupt => running.interrupt id
  | .ready .abandon => running.finish id (.error .interrupted)
  | _ => cache

/-- The first task that is ready goes on. -/
def step (cache : ClientCache) : ClientCache :=
  match cache.ready with
  | [] => cache
  | id :: rest => { cache with ready := rest }.wake id

/-- The ready tasks go on until every task waits or has ended, in at most as many steps as the
budget allows. -/
def settle : Nat → ClientCache → ClientCache
  | 0, cache => cache
  | budget + 1, cache => if cache.ready.isEmpty then cache else settle budget cache.step

/-- The cache with a new task. -/
def spawn (cache : ClientCache) (name : String) (job : Job) : ClientCache :=
  { cache with
    tasks := cache.tasks.push ⟨name, job, .ready .start, .start⟩
    ready := cache.ready ++ [cache.tasks.size] }

/-- The queue after a task stopped waiting for the lock. -/
def withdraw (cache : ClientCache) (id : TaskId) : ClientCache :=
  { cache with
    queue := cache.queue.map fun entry => if entry.1 = id then (id, .withdrawn) else entry }

/-- The cache after a task was canceled, and whether it had not ended yet. -/
def cancelTask (cache : ClientCache) (id : TaskId) : Bool × ClientCache :=
  match (cache.task id).state with
  | .ended _ => (false, cache)
  | .running => (true, cache)
  | .ready .start => (true, cache.updateTask id fun task => { task with state := .ready .abandon })
  | .ready .abandon => (true, cache)
  | .ready _ => (true, cache.updateTask id fun task => { task with state := .ready .interrupt })
  | .waiting .lock => (true, (cache.withdraw id).rouse id .interrupt)
  | .waiting (.gate _) =>
      (true, { cache with gates := cache.gates.forget id }.rouse id .interrupt)

/-- The cache after a gate was opened. -/
def openGate (cache : ClientCache) (gate : String) : ClientCache :=
  (cache.gates.waitingAt gate).foldl (fun cache id => cache.rouse id .proceed)
    { cache with gates := cache.gates.openGate gate }

end ClientCache
end TraceArchive
