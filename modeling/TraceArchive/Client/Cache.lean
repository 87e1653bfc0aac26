import TraceArchive.Client.Connection
import TraceArchive.Logging
import TraceArchive.Task.Gates

/-!
# The cache of shared clients

Clients are shared by everybody who asks for the same host, user and kind of backend.  Tasks ask
for clients, set up span stores, and close all clients.  A lock lets one task at a time create or
close clients; those that wait for it take it in the order in which they came.  A cached client is
given out without the lock.

* `create`: a new client, unless the attempt fails.
* `release`, `wakeFirst`: the lock goes to the first task in the queue.
-/

set_option autoImplicit false

namespace TraceArchive

/-- The number of a client, counted from one. -/
abbrev ClientId := Nat

/-- Why a task of the cache has no value. -/
inductive CacheFailure where
  | interrupted
  | raised (kind : String) (message : String)
  | unknownLevel (name : String)
  | invalidConfig (issues : List Issue)
  deriving Repr

/-- A span store with the client it searches with, or none when the client was given. -/
structure ReadyStore where
  config : StoreConfig
  client : Option ClientId
  deriving DecidableEq, Repr

/-- What a task of the cache comes to. -/
inductive CacheValue where
  | nothing
  | client (id : ClientId)
  | store (store : ReadyStore)
  deriving DecidableEq, Repr

/-- What a task of the cache comes to, if it does not fail. -/
abbrev CacheOutcome := Except CacheFailure CacheValue

/-- What a task of the cache does. -/
inductive Job where
  | get (settings : Settings)
  | createStore (settings : Settings) (clientGiven : Bool)
  | close
  deriving Repr, Inhabited

/-- Where a task of the cache waits. -/
inductive Place where
  | lock
  | gate (name : String)
  deriving DecidableEq, Repr

/-- How far a task has come: it waits for the lock, or for a client to close before others. -/
inductive Progression where
  | start
  | locking
  | closing (client : ClientId) (rest : List (String × ClientId))
  deriving Repr

/-- A task of the cache. -/
structure CacheTask where
  name : String
  job : Job
  state : TaskState Place CacheOutcome
  point : Progression

instance : Inhabited CacheTask :=
  ⟨"", .close, .ready .start, .start⟩

/-- The place of a task in the queue for the lock. -/
inductive Ticket where
  | waiting
  | granted
  | withdrawn
  deriving DecidableEq, Repr

/-- How closing a client goes: it may wait at a gate, and may then fail. -/
structure Closing where
  gate : Option String
  failure : Option CacheFailure

/-- What can be observed of the cache. -/
inductive CacheObservation where
  | created (client : ClientId) (connection : Connection)
  | closing (client : ClientId)
  | closed (client : ClientId)
  | logged (level : LogLevel) (text : String)
  | ended (task : TaskId) (outcome : CacheOutcome)

/-- The shared clients, the lock, the tasks, and what has been observed, the latest first. -/
structure ClientCache where
  entries : Entries String ClientId
  clients : Nat
  attempts : Nat
  openings : Nat → Option CacheFailure
  closings : ClientId → Closing
  logger : Logger
  held : Bool
  queue : List (TaskId × Ticket)
  gates : Gates
  tasks : Array CacheTask
  ready : List TaskId
  journal : List CacheObservation

namespace ClientCache

/-- An empty cache, with the outcomes of attempts to create clients and of closing them. -/
def start
    (openings : Nat → Option CacheFailure)
    (closings : ClientId → Closing) :
    ClientCache where
  entries := []
  clients := 0
  attempts := 0
  openings := openings
  closings := closings
  logger := .untouched
  held := false
  queue := []
  gates := .closed
  tasks := #[]
  ready := []
  journal := []

/-- The task with a number. -/
def task (cache : ClientCache) (id : TaskId) : CacheTask :=
  cache.tasks.getD id default

/-- The cache with one task changed. -/
def updateTask (cache : ClientCache) (id : TaskId) (change : CacheTask → CacheTask) : ClientCache :=
  { cache with tasks := cache.tasks.modify id change }

/-- The cache with one more observation. -/
def note (cache : ClientCache) (entry : CacheObservation) : ClientCache :=
  { cache with journal := entry :: cache.journal }

/-- The cache after a line was logged, which is seen if the logger shows it. -/
def log (cache : ClientCache) (level : LogLevel) (text : String) : ClientCache :=
  if cache.logger.level.shows level then cache.note (.logged level text) else cache

/-- A task is ready once more. -/
def rouse (cache : ClientCache) (id : TaskId) (signal : Signal) : ClientCache :=
  { cache.updateTask id fun task => { task with state := .ready signal } with
    ready := cache.ready ++ [id] }

/-- A task has ended. -/
def finish (cache : ClientCache) (id : TaskId) (outcome : CacheOutcome) : ClientCache :=
  (cache.updateTask id fun task => { task with state := .ended outcome }).note (.ended id outcome)

/-- A task waits at a place. -/
def park (cache : ClientCache) (id : TaskId) (place : Place) (point : Progression) : ClientCache :=
  cache.updateTask id fun task => { task with state := .waiting place, point := point }

/-- The first task in the queue is granted the lock, unless it has its answer already. -/
def wakeFirst (cache : ClientCache) : ClientCache :=
  match cache.queue with
  | (id, .waiting) :: rest => { cache with queue := (id, .granted) :: rest }.rouse id .proceed
  | _ => cache

/-- The lock is given back. -/
def release (cache : ClientCache) : ClientCache :=
  { cache with held := false }.wakeFirst

/-- A new client, unless the attempt fails. -/
def create
    (cache : ClientCache)
    (connection : Connection) :
    Except CacheFailure ClientId × ClientCache :=
  let attempted := { cache with attempts := cache.attempts + 1 }
  match cache.openings cache.attempts with
  | some failure => (.error failure, attempted)
  | none =>
      let client := cache.clients + 1
      (.ok client, { attempted with clients := client }.note (.created client connection))

end ClientCache
end TraceArchive
