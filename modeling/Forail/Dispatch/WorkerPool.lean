import Mathlib.Data.List.Perm.Basic

/-!
# The worker pool of the dispatcher

The main process puts messages on the queues of worker processes and tracks
them in `managed_tasks`; the workers answer with the identifiers of the messages
they have finished.  A call of the main process is cut into actions, so that
workers may read, finish and die between them.  A message stands for its
identifier, which `put` makes up when it has none.
-/

namespace Forail.Dispatch

abbrev Uuid := ℕ

inductive Item where
  | message (uuid : Uuid)
  | quit
  deriving DecidableEq, Repr

def Item.uuid? : Item → Option Uuid
  | message uuid => some uuid
  | quit => none

/-- `current` is the message that the process took from its queue and has not
finished; it stays when the process dies.  `managedTasks` are the keys of
`managed_tasks` in the order of their insertion. -/
structure PoolWorker where
  alive : Bool
  queue : List Item
  current : Option Uuid
  finished : List Uuid
  managedTasks : List Uuid
  deriving DecidableEq, Repr

namespace PoolWorker

/-- A new worker; its process may have failed to start. -/
def start (forked : Bool) : PoolWorker where
  alive := forked
  queue := []
  current := none
  finished := []
  managedTasks := []

variable (worker : PoolWorker)

def track (uuid : Uuid) : PoolWorker :=
  if uuid ∈ worker.managedTasks then worker
  else { worker with managedTasks := worker.managedTasks ++ [uuid] }

def enqueue (uuid : Uuid) : PoolWorker :=
  { worker with queue := worker.queue ++ [.message uuid] }

def calculateManagedTasks : PoolWorker :=
  { worker with
    managedTasks := worker.finished.foldl List.erase worker.managedTasks
    finished := [] }

def completed : List Uuid :=
  worker.finished.filter (· ∈ worker.managedTasks)

def currentTask : Option Uuid :=
  worker.calculateManagedTasks.managedTasks.head?

def idle : Bool :=
  decide (worker.calculateManagedTasks.managedTasks = [])

def waiting : List Uuid :=
  worker.queue.filterMap Item.uuid?

end PoolWorker

/-- `errbacks` are the error callbacks of a message, with the identifiers that
they are given. -/
structure Settings where
  queueSize : ℕ
  minWorkers : ℕ
  maxWorkers : ℕ
  errbacks : Uuid → List Uuid

/-- What the main process has still to do in the call it is in.  Writing a
message is `grow` and `place`. -/
inductive Action where
  | ensureWorker
  | grow
  | place (message : Uuid)
  deriving DecidableEq, Repr

def Action.message? : Action → Option Uuid
  | place message => some message
  | _ => none

/-- The last four fields are a log: the messages that were put on a queue, whose
completion was read, that were handed to the reaper, and that a process began
to perform.  A worker that was told to quit because it is idle leaves the
list. -/
structure Pool where
  workers : List PoolWorker
  todo : List Action
  accepted : List Uuid
  completed : List Uuid
  reaped : List Uuid
  performed : List Uuid
  deriving DecidableEq, Repr

namespace Pool

def empty : Pool where
  workers := []
  todo := []
  accepted := []
  completed := []
  reaped := []
  performed := []

variable (settings : Settings) (pool : Pool)

def setWorker (index : ℕ) (worker : PoolWorker) : Pool :=
  { pool with workers := pool.workers.set index worker }

def calculate (index : ℕ) : Pool :=
  match pool.workers[index]? with
  | none => pool
  | some worker =>
      { pool with
        workers := pool.workers.set index worker.calculateManagedTasks
        completed := pool.completed ++ worker.completed }

def calculateAll : Pool :=
  (List.range pool.workers.length).foldl calculate pool

def up (forked : Bool) : Pool :=
  if pool.workers.length = settings.maxWorkers then pool
  else { pool with workers := pool.workers ++ [.start forked] }

def grow (forked : Bool) : Pool :=
  if pool.workers.length < settings.minWorkers then pool.up settings forked
  else if pool.calculateAll.workers.all fun worker => !worker.idle then
    pool.calculateAll.up settings forked
  else pool.calculateAll

/-- `PoolWorker.put`, with `false` for `QueueFull`.  The message is tracked
before it is put on the queue. -/
def put (index : ℕ) (message : Uuid) : Pool × Bool :=
  match pool.workers[index]? with
  | none => (pool, false)
  | some worker =>
      if worker.queue.length < settings.queueSize then
        ({ pool.setWorker index ((worker.track message).enqueue message) with
            accepted :=
              if message ∈ pool.accepted then pool.accepted
              else message :: pool.accepted }.calculate index,
          true)
      else (pool.setWorker index (worker.track message), false)

/-- The loop over the shuffled workers, up to the first one that is not busy. -/
def findIdle (pool : Pool) : List ℕ → Pool × Option ℕ
  | [] => (pool, none)
  | index :: rest =>
      if ((pool.calculate index).workers[index]?).any PoolWorker.idle then
        (pool.calculate index, some index)
      else findIdle (pool.calculate index) rest

/-- `sorted(range(len(self.workers)), key=lambda x: -1 if x == preferred_queue else x)` -/
def queueOrder (preferred length : ℕ) : List ℕ :=
  (List.range length).filter (· = preferred) ++ (List.range length).filter (· ≠ preferred)

def writeFirst (pool : Pool) (message : Uuid) : List ℕ → Pool
  | [] => pool
  | index :: rest =>
      match pool.put settings index message with
      | (pool, true) => pool
      | (pool, false) => writeFirst pool message rest

/-- `AutoscalePool.write` after the pool has grown.  When the queue of an idle
worker is full, the exception is logged and the message is dropped. -/
def place (message : Uuid) (order : List ℕ) (preferred : ℕ) : Pool :=
  match pool.findIdle order with
  | (pool, some index) => (pool.put settings index message).1
  | (pool, none) =>
      pool.writeFirst settings message (queueOrder preferred pool.workers.length)

end Pool

/-! ## Cleaning up -/

/-- What the loop over the workers has come to: the workers that stay, the log,
and the messages to be written again. -/
structure Cleanup where
  kept : List PoolWorker
  completed : List Uuid
  reaped : List Uuid
  orphaned : List Uuid

namespace Cleanup

/-- One worker; `remaining` is the number of workers that are still to be looked
at, this one included. -/
def visit (settings : Settings) (cleanup : Cleanup) (remaining : ℕ) (worker : PoolWorker) :
    Cleanup :=
  let completed := cleanup.completed ++ worker.completed
  if worker.alive then
    if worker.idle && decide (settings.minWorkers < cleanup.kept.length + remaining) then
      { cleanup with completed := completed }
    else
      { cleanup with
        kept := cleanup.kept ++ [worker.calculateManagedTasks]
        completed := completed }
  else
    { kept := cleanup.kept
      completed := completed
      reaped := cleanup.reaped ++ worker.currentTask.toList
      orphaned := cleanup.orphaned ++
        (worker.currentTask.toList.flatMap settings.errbacks ++ worker.waiting) }

def visitAll (settings : Settings) (cleanup : Cleanup) : List PoolWorker → Cleanup
  | [] => cleanup
  | worker :: rest => visitAll settings (cleanup.visit settings (rest.length + 1) worker) rest

end Cleanup

namespace Pool

variable (settings : Settings) (pool : Pool)

def rewrite (message : Uuid) : List Action := [.ensureWorker, .grow, .place message]

def cleanup : Pool :=
  let result := Cleanup.visitAll settings
    { kept := [], completed := pool.completed, reaped := pool.reaped, orphaned := [] }
    pool.workers
  { pool with
    workers := result.kept
    todo := result.orphaned.flatMap rewrite
    completed := result.completed
    reaped := result.reaped }

/-! ## Steps -/

/-- What the main process draws at random in one action, and whether a new
process starts. -/
structure Choice where
  forked : Bool
  order : List ℕ
  preferred : ℕ

inductive Event where
  | write (message : Uuid)
  | cleanup
  | up (forked : Bool)
  /-- The main process goes on with the call it is in. -/
  | continue (choice : Choice)
  /-- A control message asks for the running tasks. -/
  | calculate (worker : ℕ)
  /-- A control message reloads the workers. -/
  | quit (worker : ℕ)
  | workerRead (worker : ℕ)
  | workerFinish (worker : ℕ)
  | workerExit (worker : ℕ)

def act (choice : Choice) : Action → Pool
  | .ensureWorker =>
      if pool.workers.length = 0 then pool.up settings choice.forked else pool
  | .grow => pool.grow settings choice.forked
  | .place message => pool.place settings message choice.order choice.preferred

def workerRead (index : ℕ) (worker : PoolWorker) : Option Pool :=
  if worker.alive && worker.current.isNone then
    match worker.queue with
    | [] => none
    | .quit :: queue => some (pool.setWorker index { worker with alive := false, queue := queue })
    | .message message :: queue =>
        some { pool.setWorker index
            { worker with current := some message, queue := queue } with
          performed := message :: pool.performed }
  else none

def workerFinish (index : ℕ) (worker : PoolWorker) : Option Pool :=
  if worker.alive then
    worker.current.map fun message =>
      pool.setWorker index
        { worker with current := none, finished := worker.finished ++ [message] }
  else none

/-- Calls begin when the main process has nothing left to do. -/
def step (settings : Settings) (pool : Pool) : Event → Option Pool
  | .write message =>
      if pool.todo = [] then some { pool with todo := [.grow, .place message] } else none
  | .cleanup => if pool.todo = [] then some (pool.cleanup settings) else none
  | .up forked => if pool.todo = [] then some (pool.up settings forked) else none
  | .continue choice =>
      match pool.todo with
      | [] => none
      | action :: rest =>
          if choice.order.Perm (List.range pool.workers.length) then
            some { pool.act settings choice action with todo := rest }
          else none
  | .calculate index => some (pool.calculate index)
  | .quit index =>
      (pool.workers[index]?).map fun worker =>
        pool.setWorker index { worker with queue := worker.queue ++ [.quit] }
  | .workerRead index => (pool.workers[index]?).bind (pool.workerRead index)
  | .workerFinish index => (pool.workers[index]?).bind (pool.workerFinish index)
  | .workerExit index =>
      (pool.workers[index]?).map fun worker =>
        pool.setWorker index { worker with alive := false }

end Pool

end Forail.Dispatch
