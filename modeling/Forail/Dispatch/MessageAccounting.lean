import Forail.Core.Custody
import Forail.Core.Runs
import Forail.Dispatch.WorkerPool

/-!
# Where the messages of the pool are

Every message that was put on a queue is tracked by a worker, finished, handed
to the reaper or about to be written again.  The lists below are compared up to
their order, so that a message that is in two places counts twice.
-/

namespace Forail.Dispatch

open Forail.Custody Forail.Runs

/-! ## One worker -/

namespace PoolWorker

/-- `managed_tasks` lists what was put on the queue and is not known to be
finished: first what the process has done, then what it is doing, then what
waits. -/
def Tracked (worker : PoolWorker) : Prop :=
  worker.managedTasks = worker.finished ++ (worker.current.toList ++ worker.waiting)

variable {worker : PoolWorker}

theorem start_tracked (forked : Bool) : (start forked).Tracked := rfl

namespace Tracked

theorem managedTasks_calculate (htracked : worker.Tracked) :
    worker.calculateManagedTasks.managedTasks = worker.current.toList ++ worker.waiting := by
  rw [calculateManagedTasks, htracked]
  exact foldl_erase_append _ _

theorem completed_eq (htracked : worker.Tracked) : worker.completed = worker.finished := by
  rw [completed, List.filter_eq_self]
  intro uuid huuid
  rw [htracked]
  simp [huuid]

theorem calculate (htracked : worker.Tracked) : worker.calculateManagedTasks.Tracked :=
  htracked.managedTasks_calculate

theorem calculate_perm (htracked : worker.Tracked) :
    (worker.calculateManagedTasks.managedTasks ++ worker.completed).Perm worker.managedTasks := by
  rw [htracked.managedTasks_calculate, htracked.completed_eq, htracked]
  exact List.perm_append_comm

/-- The head of `managed_tasks` is what the process is running, unless it died
between two messages. -/
theorem currentTask_eq (htracked : worker.Tracked)
    (hbetween : worker.current = none → worker.waiting = []) :
    worker.currentTask = worker.current := by
  rw [currentTask, htracked.managedTasks_calculate]
  cases hcurrent : worker.current with
  | none => simp [hbetween hcurrent]
  | some message => rfl

theorem idle_iff (htracked : worker.Tracked) :
    worker.idle = true ↔ worker.current = none ∧ worker.waiting = [] := by
  rw [idle, decide_eq_true_iff, htracked.managedTasks_calculate]
  simp

end Tracked

@[simp]
theorem waiting_calculateManagedTasks (worker : PoolWorker) :
    worker.calculateManagedTasks.waiting = worker.waiting := rfl

@[simp]
theorem waiting_enqueue (worker : PoolWorker) (uuid : Uuid) :
    (worker.enqueue uuid).waiting = worker.waiting ++ [uuid] := by
  simp [enqueue, waiting, Item.uuid?]

theorem track_of_notMem {uuid : Uuid} (huuid : uuid ∉ worker.managedTasks) :
    worker.track uuid = { worker with managedTasks := worker.managedTasks ++ [uuid] } :=
  if_neg huuid

theorem idle_calculateManagedTasks (worker : PoolWorker) :
    worker.calculateManagedTasks.idle = worker.idle := rfl

end PoolWorker

/-! ## The messages of the pool -/

namespace Pool

variable (pool : Pool)

def held : List Uuid := pool.workers.flatMap PoolWorker.managedTasks

def settled : List Uuid := pool.held ++ pool.completed ++ pool.reaped

def pending : List Uuid := pool.todo.filterMap Action.message?

def delivered : List Uuid := pool.performed ++ pool.workers.flatMap PoolWorker.waiting

def whereabouts : List Uuid := pool.settled ++ pool.pending

structure Accounted : Prop where
  tracked : ∀ worker ∈ pool.workers, worker.Tracked
  once : pool.whereabouts.Nodup
  deliveredOnce : (pool.delivered ++ pool.pending).Nodup
  covered : ∀ uuid ∈ pool.accepted, uuid ∈ pool.whereabouts
  settled : ∀ uuid ∈ pool.settled, uuid ∈ pool.accepted
  delivered : ∀ uuid ∈ pool.delivered, uuid ∈ pool.accepted

theorem empty_accounted : empty.Accounted where
  tracked := by simp [empty]
  once := by simp [empty, whereabouts, Pool.settled, held, pending]
  deliveredOnce := by simp [empty, Pool.delivered, pending]
  covered := by simp [empty]
  settled := by simp [empty, Pool.settled, held]
  delivered := by simp [empty, Pool.delivered]

/-! ## Moves -/

/-- From one state to another `moved` is put on queues, and no other message
leaves its place except by being performed or finished. -/
structure Moves (pool pool' : Pool) (moved : List Uuid) : Prop where
  tracked : ∀ worker ∈ pool'.workers, worker.Tracked
  todo : pool'.todo = pool.todo
  settled : pool'.settled.Perm (pool.settled ++ moved)
  delivered : pool'.delivered.Perm (pool.delivered ++ moved)
  accepted : ∀ uuid, uuid ∈ pool'.accepted ↔ uuid ∈ pool.accepted ∨ uuid ∈ moved

namespace Moves

variable {pool pool' pool'' : Pool} {moved moved' : List Uuid}

theorem refl (htracked : ∀ worker ∈ pool.workers, worker.Tracked) : Moves pool pool [] where
  tracked := htracked
  todo := rfl
  settled := by simp
  delivered := by simp
  accepted := by simp

theorem trans (hfirst : Moves pool pool' moved) (hsecond : Moves pool' pool'' moved') :
    Moves pool pool'' (moved ++ moved') where
  tracked := hsecond.tracked
  todo := hsecond.todo.trans hfirst.todo
  settled := by
    calc pool''.settled.Perm (pool'.settled ++ moved') := hsecond.settled
      List.Perm _ (pool.settled ++ moved ++ moved') := hfirst.settled.append_right _
      List.Perm _ _ := .of_eq (List.append_assoc _ _ _)
  delivered := by
    calc pool''.delivered.Perm (pool'.delivered ++ moved') := hsecond.delivered
      List.Perm _ (pool.delivered ++ moved ++ moved') := hfirst.delivered.append_right _
      List.Perm _ _ := .of_eq (List.append_assoc _ _ _)
  accepted uuid := by
    rw [hsecond.accepted, hfirst.accepted, List.mem_append, or_assoc]

/-- A change of one worker, with the messages whose completion was read and those
that its process began to perform. -/
theorem of_worker (htracked : ∀ worker ∈ pool.workers, worker.Tracked) {index : ℕ}
    {old new : PoolWorker} (completed begun : List Uuid) (hold : pool.workers[index]? = some old)
    (hnew : new.Tracked)
    (hmanaged : (new.managedTasks ++ completed).Perm (old.managedTasks ++ moved))
    (hwaiting : (new.waiting ++ begun).Perm (old.waiting ++ moved))
    (hworkers : pool'.workers = pool.workers.set index new) (htodo : pool'.todo = pool.todo)
    (hcompleted : pool'.completed = pool.completed ++ completed)
    (hreaped : pool'.reaped = pool.reaped) (hperformed : pool'.performed = begun ++ pool.performed)
    (haccepted : ∀ uuid, uuid ∈ pool'.accepted ↔ uuid ∈ pool.accepted ∨ uuid ∈ moved) :
    Moves pool pool' moved where
  tracked := by
    rw [hworkers]
    exact mem_set_property htracked index hnew
  todo := htodo
  settled := by
    rw [List.perm_iff_count]
    intro uuid
    have hheld := (flatMap_set_perm PoolWorker.managedTasks hold hmanaged).count_eq uuid
    simp only [Pool.settled, held, hworkers, hcompleted, hreaped, List.count_append] at hheld ⊢
    omega
  delivered := by
    rw [List.perm_iff_count]
    intro uuid
    have hqueues := (flatMap_set_perm PoolWorker.waiting hold hwaiting).count_eq uuid
    simp only [Pool.delivered, hworkers, hperformed, List.count_append] at hqueues ⊢
    omega
  accepted := haccepted

theorem of_setWorker (htracked : ∀ worker ∈ pool.workers, worker.Tracked) {index : ℕ}
    {old new : PoolWorker} (hold : pool.workers[index]? = some old) (hnew : new.Tracked)
    (hmanaged : new.managedTasks = old.managedTasks) (hwaiting : new.waiting = old.waiting) :
    Moves pool (pool.setWorker index new) [] :=
  of_worker htracked [] [] hold hnew (by rw [hmanaged]) (by rw [hwaiting])
    rfl rfl (by simp [setWorker]) rfl rfl (by simp [setWorker])

end Moves

variable {pool : Pool} {settings : Settings}

theorem calculate_moves (htracked : ∀ worker ∈ pool.workers, worker.Tracked) (index : ℕ) :
    Moves pool (pool.calculate index) [] := by
  rw [calculate]
  split
  · exact .refl htracked
  · next worker hworker =>
    have hold := htracked worker (List.mem_of_getElem? hworker)
    exact .of_worker htracked worker.completed [] hworker hold.calculate
      (by simpa using hold.calculate_perm) (by simp) rfl rfl rfl rfl rfl (by simp)

theorem foldl_calculate_moves (indices : List ℕ)
    (htracked : ∀ worker ∈ pool.workers, worker.Tracked) :
    Moves pool (indices.foldl calculate pool) [] := by
  induction indices generalizing pool with
  | nil => exact .refl htracked
  | cons index indices ih =>
    have hfirst := calculate_moves htracked index
    exact hfirst.trans (ih hfirst.tracked)

theorem up_moves (htracked : ∀ worker ∈ pool.workers, worker.Tracked) (forked : Bool) :
    Moves pool (pool.up settings forked) [] := by
  rw [up]
  split
  · exact .refl htracked
  · refine ⟨?_, rfl, ?_, ?_, by simp⟩
    · intro worker hworker
      rcases List.mem_append.mp hworker with hworker | hworker
      · exact htracked worker hworker
      · obtain rfl := List.mem_singleton.mp hworker
        exact PoolWorker.start_tracked forked
    · simp [Pool.settled, held, PoolWorker.start]
    · simp [Pool.delivered, PoolWorker.start, PoolWorker.waiting]

theorem grow_moves (htracked : ∀ worker ∈ pool.workers, worker.Tracked) (forked : Bool) :
    Moves pool (pool.grow settings forked) [] := by
  have hcalculated : Moves pool pool.calculateAll [] := foldl_calculate_moves _ htracked
  rw [grow]
  split
  · exact up_moves htracked forked
  · split
    · exact hcalculated.trans (up_moves hcalculated.tracked forked)
    · exact hcalculated

/-! ## Putting a message on a queue -/

def isIdle (pool : Pool) (index : ℕ) : Bool :=
  (pool.workers[index]?).any PoolWorker.idle

def hasRoom (settings : Settings) (pool : Pool) (index : ℕ) : Bool :=
  (pool.workers[index]?).any fun worker => decide (worker.queue.length < settings.queueSize)

def firstTried (pool : Pool) (choice : Choice) : Option ℕ :=
  (choice.order.find? pool.isIdle).or (queueOrder choice.preferred pool.workers.length).head?

@[simp]
theorem length_workers_calculate (pool : Pool) (index : ℕ) :
    (pool.calculate index).workers.length = pool.workers.length := by
  rw [calculate]
  split <;> simp

theorem any_calculate (pool : Pool) (index other : ℕ) {test : PoolWorker → Bool}
    (htest : ∀ worker, test worker.calculateManagedTasks = test worker) :
    ((pool.calculate index).workers[other]?).any test = (pool.workers[other]?).any test := by
  rw [calculate]
  split
  · rfl
  · next worker hworker =>
    by_cases hother : index = other
    · subst hother
      obtain ⟨hlength, hget⟩ := List.getElem?_eq_some_iff.mp hworker
      simp [hlength, hget, htest]
    · simp [List.getElem?_set_ne hother]

theorem isIdle_calculate (pool : Pool) (index : ℕ) :
    (pool.calculate index).isIdle = pool.isIdle := by
  funext other
  exact any_calculate pool index other PoolWorker.idle_calculateManagedTasks

theorem hasRoom_calculate (pool : Pool) (index : ℕ) :
    (pool.calculate index).hasRoom settings = pool.hasRoom settings := by
  funext other
  exact any_calculate pool index other fun _ => rfl

theorem findIdle_snd (pool : Pool) (order : List ℕ) :
    (pool.findIdle order).2 = order.find? pool.isIdle := by
  induction order generalizing pool with
  | nil => rfl
  | cons index order ih =>
    have htested : ((pool.calculate index).workers[index]?).any PoolWorker.idle =
        pool.isIdle index :=
      congrFun (isIdle_calculate pool index) index
    rw [findIdle, htested, List.find?_cons]
    cases pool.isIdle index with
    | true => rfl
    | false => simpa [isIdle_calculate] using ih (pool.calculate index)

theorem length_workers_findIdle (pool : Pool) (order : List ℕ) :
    (pool.findIdle order).1.workers.length = pool.workers.length := by
  induction order generalizing pool with
  | nil => rfl
  | cons index order ih =>
    rw [findIdle]
    split
    · exact length_workers_calculate pool index
    · rw [ih, length_workers_calculate]

theorem hasRoom_findIdle (pool : Pool) (order : List ℕ) :
    (pool.findIdle order).1.hasRoom settings = pool.hasRoom settings := by
  induction order generalizing pool with
  | nil => rfl
  | cons index order ih =>
    rw [findIdle]
    split
    · exact hasRoom_calculate pool index
    · rw [ih, hasRoom_calculate]

theorem findIdle_moves (htracked : ∀ worker ∈ pool.workers, worker.Tracked) (order : List ℕ) :
    Moves pool (pool.findIdle order).1 [] := by
  induction order generalizing pool with
  | nil => exact .refl htracked
  | cons index order ih =>
    have hcalculated := calculate_moves htracked index
    rw [findIdle]
    split
    · exact hcalculated
    · exact hcalculated.trans (ih hcalculated.tracked)

theorem put_moves (htracked : ∀ worker ∈ pool.workers, worker.Tracked) {index : ℕ} {message : Uuid}
    (hroom : pool.hasRoom settings index = true) (hmessage : message ∉ pool.held) :
    Moves pool (pool.put settings index message).1 [message] ∧
      (pool.put settings index message).2 = true := by
  obtain ⟨worker, hworker, hlength⟩ := Option.any_eq_true .. |>.mp hroom
  have hmem : worker ∈ pool.workers := List.mem_of_getElem? hworker
  have hnew : message ∉ worker.managedTasks := fun hmanaged =>
    hmessage (List.mem_flatMap.mpr ⟨worker, hmem, hmanaged⟩)
  have hput : ((worker.track message).enqueue message).Tracked := by
    rw [PoolWorker.Tracked, PoolWorker.waiting_enqueue, PoolWorker.track_of_notMem hnew]
    simp only [PoolWorker.enqueue, PoolWorker.waiting]
    rw [htracked worker hmem]
    simp [PoolWorker.waiting]
  have hplaced : Moves pool
      { pool.setWorker index ((worker.track message).enqueue message) with
        accepted := if message ∈ pool.accepted then pool.accepted else message :: pool.accepted }
      [message] := by
    refine .of_worker htracked [] [] hworker hput ?_ ?_ rfl rfl ?_ rfl rfl ?_
    · simp [PoolWorker.track_of_notMem hnew, PoolWorker.enqueue]
    · simp [PoolWorker.track_of_notMem hnew, PoolWorker.waiting, PoolWorker.enqueue, Item.uuid?]
    · simp [setWorker]
    · intro uuid
      by_cases haccepted : message ∈ pool.accepted <;> simp [haccepted]
      · rintro rfl
        exact haccepted
      · exact or_comm
  rw [put, hworker]
  simp only [of_decide_eq_true hlength, if_true]
  exact ⟨hplaced.trans (calculate_moves hplaced.tracked index), trivial⟩

theorem writeFirst_cons {message : Uuid} {index : ℕ} (rest : List ℕ)
    (hput : (pool.put settings index message).2 = true) :
    pool.writeFirst settings message (index :: rest) = (pool.put settings index message).1 := by
  rw [writeFirst]
  generalize pool.put settings index message = result at hput
  obtain ⟨written, done⟩ := result
  obtain rfl : done = true := hput
  rfl

theorem place_moves (htracked : ∀ worker ∈ pool.workers, worker.Tracked) {message : Uuid}
    {choice : Choice}
    (hroom : (pool.firstTried choice).any (pool.hasRoom settings) = true)
    (hmessage : message ∉ pool.settled) :
    Moves pool (pool.place settings message choice.order choice.preferred) [message] := by
  obtain ⟨index, hindex, hroom⟩ := Option.any_eq_true .. |>.mp hroom
  have hmoves := findIdle_moves htracked choice.order
  have hheld : message ∉ (pool.findIdle choice.order).1.held := by
    intro hheld
    have hsettled : message ∈ pool.settled ++ [] :=
      hmoves.settled.subset (by simp [Pool.settled, hheld])
    exact hmessage (by simpa using hsettled)
  rw [← hasRoom_findIdle pool choice.order] at hroom
  have hput := put_moves hmoves.tracked hroom hheld
  rw [firstTried, ← findIdle_snd, ← length_workers_findIdle pool choice.order] at hindex
  rw [place]
  generalize pool.findIdle choice.order = found at *
  obtain ⟨looked, idle | idle⟩ := found
  · obtain ⟨rest, hrest⟩ := List.head?_eq_some_iff.mp (by simpa using hindex)
    simp only [hrest, writeFirst_cons rest hput.2]
    exact hmoves.trans hput.1
  · obtain rfl : idle = index := by simpa using hindex
    exact hmoves.trans hput.1

/-! ## Cleaning up -/

end Pool

namespace PoolWorker

def requeued (worker : PoolWorker) : List Uuid :=
  if worker.alive then [] else worker.waiting

def callbacks (settings : Settings) (worker : PoolWorker) : List Uuid :=
  if worker.alive then [] else worker.current.toList.flatMap settings.errbacks

/-- The process died while it was running a message, or with an empty queue. -/
def DiedRunning (worker : PoolWorker) : Prop :=
  worker.alive = false → worker.current = none → worker.waiting = []

instance : DecidablePred DiedRunning := fun worker =>
  inferInstanceAs (Decidable (worker.alive = false → worker.current = none → worker.waiting = []))

end PoolWorker

namespace Cleanup

def settled (cleanup : Cleanup) : List Uuid :=
  cleanup.kept.flatMap PoolWorker.managedTasks ++ cleanup.completed ++ cleanup.reaped

variable {settings : Settings}

structure Cleaned (settings : Settings) (workers : List PoolWorker)
    (cleanup cleanup' : Cleanup) : Prop where
  tracked : ∀ worker ∈ cleanup'.kept, worker ∈ cleanup.kept ∨ worker.Tracked
  settled : (cleanup'.settled ++ workers.flatMap PoolWorker.requeued).Perm
    (cleanup.settled ++ workers.flatMap PoolWorker.managedTasks)
  waiting : (cleanup'.kept.flatMap PoolWorker.waiting ++
      workers.flatMap PoolWorker.requeued).Perm
    (cleanup.kept.flatMap PoolWorker.waiting ++ workers.flatMap PoolWorker.waiting)
  orphaned : cleanup'.orphaned = cleanup.orphaned ++
    workers.flatMap fun worker => worker.callbacks settings ++ worker.requeued

theorem Cleaned.trans {workers workers' : List PoolWorker} {cleanup cleanup' cleanup'' : Cleanup}
    (hfirst : Cleaned settings workers cleanup cleanup')
    (hsecond : Cleaned settings workers' cleanup' cleanup'') :
    Cleaned settings (workers ++ workers') cleanup cleanup'' where
  tracked worker hworker := by
    rcases hsecond.tracked worker hworker with hkept | htracked
    · exact hfirst.tracked worker hkept
    · exact .inr htracked
  settled := by
    simpa only [List.flatMap_append] using account_trans hfirst.settled hsecond.settled
  waiting := by
    simpa only [List.flatMap_append] using account_trans hfirst.waiting hsecond.waiting
  orphaned := by
    rw [hsecond.orphaned, hfirst.orphaned, List.flatMap_append, List.append_assoc]

theorem visit_cleaned (settings : Settings) {worker : PoolWorker} (htracked : worker.Tracked)
    (hdied : worker.DiedRunning) (cleanup : Cleanup) (remaining : ℕ) :
    Cleaned settings [worker] cleanup (cleanup.visit settings remaining worker) := by
  have hmanaged := htracked.calculate_perm.count_eq
  simp only [List.count_append] at hmanaged
  rw [visit]
  by_cases halive : worker.alive = true
  · by_cases hidle : (worker.idle &&
        decide (settings.minWorkers < cleanup.kept.length + remaining)) = true
    · have hempty : worker.current = none ∧ worker.waiting = [] :=
        htracked.idle_iff.mp (Bool.and_eq_true_iff.mp hidle).1
      rw [htracked.managedTasks_calculate] at hmanaged
      simp only [halive, hidle, if_true]
      refine ⟨fun _ => .inl, ?_, ?_, ?_⟩
      · rw [List.perm_iff_count]
        intro uuid
        have := hmanaged uuid
        simp [settled, PoolWorker.requeued, halive, hempty] at this ⊢
        omega
      · simp [PoolWorker.requeued, halive, hempty]
      · simp [PoolWorker.requeued, PoolWorker.callbacks, halive]
    · simp only [halive, hidle, if_true]
      refine ⟨?_, ?_, ?_, ?_⟩
      · intro kept hkept
        rcases List.mem_append.mp hkept with hkept | hkept
        · exact .inl hkept
        · obtain rfl := List.mem_singleton.mp hkept
          exact .inr htracked.calculate
      · rw [List.perm_iff_count]
        intro uuid
        have := hmanaged uuid
        simp [settled, PoolWorker.requeued, halive]
        omega
      · simp [PoolWorker.requeued, halive]
      · simp [PoolWorker.requeued, PoolWorker.callbacks, halive]
  · have hcurrent : worker.currentTask = worker.current :=
      htracked.currentTask_eq (hdied (by simpa using halive))
    rw [htracked.managedTasks_calculate] at hmanaged
    simp only [halive, hcurrent]
    refine ⟨fun _ => .inl, ?_, ?_, ?_⟩
    · rw [List.perm_iff_count]
      intro uuid
      have := hmanaged uuid
      simp [settled, PoolWorker.requeued, halive] at this ⊢
      omega
    · simp [PoolWorker.requeued, halive]
    · simp [PoolWorker.requeued, PoolWorker.callbacks, halive]

theorem visitAll_cleaned (settings : Settings) {workers : List PoolWorker}
    (htracked : ∀ worker ∈ workers, worker.Tracked)
    (hdied : ∀ worker ∈ workers, worker.DiedRunning) (cleanup : Cleanup) :
    Cleaned settings workers cleanup (cleanup.visitAll settings workers) := by
  induction workers generalizing cleanup with
  | nil => exact ⟨fun _ => .inl, by simp [visitAll], by simp [visitAll], by simp [visitAll]⟩
  | cons worker workers ih =>
    simp only [List.forall_mem_cons] at htracked hdied
    have hfirst := visit_cleaned settings htracked.1 hdied.1 cleanup
      (workers.length + 1)
    rw [visitAll]
    exact hfirst.trans (ih htracked.2 hdied.2 _)

end Cleanup

namespace Pool

variable {pool pool' : Pool} {settings : Settings}

def requeued (pool : Pool) : List Uuid := pool.workers.flatMap PoolWorker.requeued

def callbacks (settings : Settings) (pool : Pool) : List Uuid :=
  pool.workers.flatMap (PoolWorker.callbacks settings)

theorem filterMap_rewrite (messages : List Uuid) :
    (messages.flatMap rewrite).filterMap Action.message? = messages := by
  induction messages with
  | nil => rfl
  | cons message messages ih =>
    rw [List.flatMap_cons, List.filterMap_append, ih]
    rfl

section Cleanup

variable (settings) (htracked : ∀ worker ∈ pool.workers, worker.Tracked)
  (hdied : ∀ worker ∈ pool.workers, worker.DiedRunning)
include htracked hdied

theorem cleanup_tracked : ∀ worker ∈ (pool.cleanup settings).workers, worker.Tracked := by
  intro worker hworker
  rcases (Cleanup.visitAll_cleaned settings htracked hdied _).tracked worker hworker with hkept | hkept
  · simp at hkept
  · exact hkept

theorem cleanup_settled : ((pool.cleanup settings).settled ++ pool.requeued).Perm pool.settled := by
  have hcleaned := (Cleanup.visitAll_cleaned settings htracked hdied
    ⟨[], pool.completed, pool.reaped, []⟩).settled
  have hcollected : ((pool.cleanup settings).settled ++ pool.requeued).Perm
      (pool.completed ++ pool.reaped ++ pool.held) := hcleaned
  have hsettled : pool.settled = pool.held ++ (pool.completed ++ pool.reaped) :=
    List.append_assoc _ _ _
  rw [hsettled]
  exact hcollected.trans List.perm_append_comm

theorem cleanup_delivered :
    ((pool.cleanup settings).delivered ++ pool.requeued).Perm pool.delivered := by
  have hcleaned := (Cleanup.visitAll_cleaned settings htracked hdied
    ⟨[], pool.completed, pool.reaped, []⟩).waiting
  rw [Pool.delivered, List.append_assoc]
  exact hcleaned.append_left pool.performed

theorem cleanup_pending :
    (pool.cleanup settings).pending.Perm (pool.requeued ++ pool.callbacks settings) := by
  have hcleaned := (Cleanup.visitAll_cleaned settings htracked hdied
    ⟨[], pool.completed, pool.reaped, []⟩).orphaned
  rw [pending, cleanup, filterMap_rewrite, hcleaned]
  calc List.Perm _ (pool.callbacks settings ++ pool.requeued) :=
        (List.flatMap_append_perm pool.workers _ _).symm
    List.Perm _ (pool.requeued ++ pool.callbacks settings) := List.perm_append_comm

end Cleanup

/-! ## Steps -/

/-- A written message and the callbacks of an interrupted one are new, a process
dies while it is running a message or with an empty queue, and the worker that is
tried first has room. -/
def Allowed (settings : Settings) (pool : Pool) : Event → Prop
  | .write message => message ∉ pool.accepted
  | .cleanup =>
      (∀ worker ∈ pool.workers, worker.DiedRunning) ∧
        (pool.callbacks settings).Nodup ∧
          ∀ uuid ∈ pool.callbacks settings, uuid ∉ pool.accepted
  | .continue choice =>
      (pool.todo.head?.bind Action.message?).isSome = true →
        (pool.firstTried choice).any (pool.hasRoom settings) = true
  | _ => True

instance (event : Event) : Decidable (Allowed settings pool event) :=
  match event with
  | .write message => inferInstanceAs (Decidable (message ∉ pool.accepted))
  | .cleanup => inferInstanceAs (Decidable (_ ∧ _ ∧ ∀ uuid ∈ pool.callbacks settings, _))
  | .continue _ => inferInstanceAs (Decidable (_ = true → _ = true))
  | .up _ | .calculate _ | .quit _ | .workerRead _ | .workerFinish _ | .workerExit _ =>
      inferInstanceAs (Decidable True)

theorem Accounted.of_perm (haccounted : pool.Accounted) (new : List Uuid)
    (htracked : ∀ worker ∈ pool'.workers, worker.Tracked)
    (hwhereabouts : pool'.whereabouts.Perm (pool.whereabouts ++ new))
    (hdelivered : (pool'.delivered ++ pool'.pending).Perm
      (pool.delivered ++ pool.pending ++ new))
    (hnodup : new.Nodup) (hnew : ∀ uuid ∈ new, uuid ∉ pool.accepted ∧ uuid ∉ pool.pending)
    (haccepted : ∀ uuid ∈ pool'.accepted, uuid ∈ pool.accepted ∨ uuid ∈ pool.pending)
    (hsettled' : ∀ uuid ∈ pool'.settled, uuid ∈ pool'.accepted)
    (hdelivered' : ∀ uuid ∈ pool'.delivered, uuid ∈ pool'.accepted) : pool'.Accounted where
  tracked := htracked
  once := by
    rw [hwhereabouts.nodup_iff, List.nodup_append']
    refine ⟨haccounted.once, hnodup, fun uuid hold huuid => ?_⟩
    rcases List.mem_append.mp hold with hsettled | hpending
    · exact (hnew uuid huuid).1 (haccounted.settled uuid hsettled)
    · exact (hnew uuid huuid).2 hpending
  deliveredOnce := by
    rw [hdelivered.nodup_iff, List.nodup_append']
    refine ⟨haccounted.deliveredOnce, hnodup, fun uuid hold huuid => ?_⟩
    rcases List.mem_append.mp hold with hdelivered | hpending
    · exact (hnew uuid huuid).1 (haccounted.delivered uuid hdelivered)
    · exact (hnew uuid huuid).2 hpending
  covered uuid huuid := by
    refine hwhereabouts.mem_iff.mpr (List.mem_append_left _ ?_)
    rcases haccepted uuid huuid with hold | hpending
    · exact haccounted.covered uuid hold
    · exact List.mem_append_right _ hpending
  settled := hsettled'
  delivered := hdelivered'

theorem Accounted.of_moves (haccounted : pool.Accounted) {moved : List Uuid} (todo : List Action)
    (hmoves : Moves pool pool' moved)
    (hpending : pool.pending = moved ++ todo.filterMap Action.message?) :
    { pool' with todo := todo }.Accounted := by
  refine haccounted.of_perm [] hmoves.tracked ?_ ?_ (by simp) (by simp) ?_ ?_ ?_
  · have hsettled := hmoves.settled.append_right (todo.filterMap Action.message?)
    rw [List.append_assoc, ← hpending] at hsettled
    rw [List.append_nil]
    exact hsettled
  · have hdelivered := hmoves.delivered.append_right (todo.filterMap Action.message?)
    rw [List.append_assoc, ← hpending] at hdelivered
    rw [List.append_nil]
    exact hdelivered
  · intro uuid huuid
    rcases (hmoves.accepted uuid).mp huuid with hold | hmoved
    · exact .inl hold
    · exact .inr (by simp [hpending, hmoved])
  · intro uuid huuid
    refine (hmoves.accepted uuid).mpr ?_
    rcases List.mem_append.mp (hmoves.settled.subset huuid) with hold | hmoved
    · exact .inl (haccounted.settled uuid hold)
    · exact .inr hmoved
  · intro uuid huuid
    refine (hmoves.accepted uuid).mpr ?_
    rcases List.mem_append.mp (hmoves.delivered.subset huuid) with hold | hmoved
    · exact .inl (haccounted.delivered uuid hold)
    · exact .inr hmoved

theorem Accounted.of_stay (haccounted : pool.Accounted) (hmoves : Moves pool pool' []) :
    pool'.Accounted :=
  haccounted.of_moves pool'.todo hmoves (by rw [hmoves.todo]; rfl)

theorem write_accounted (haccounted : pool.Accounted) {message : Uuid}
    (hnew : message ∉ pool.accepted) (htodo : pool.todo = []) :
    { pool with todo := [.grow, .place message] }.Accounted := by
  have hpending : pool.pending = [] := by
    rw [pending, htodo]
    rfl
  refine haccounted.of_perm [message] haccounted.tracked ?_ ?_ (by simp) ?_
    (fun _ => .inl) haccounted.settled haccounted.delivered
  · rw [whereabouts, whereabouts, hpending, List.append_nil]
    rfl
  · rw [hpending, List.append_nil]
    rfl
  · simpa [hpending] using hnew

theorem cleanup_accounted (haccounted : pool.Accounted) (hallowed : Allowed settings pool .cleanup)
    (htodo : pool.todo = []) : (pool.cleanup settings).Accounted := by
  obtain ⟨hdied, hnodup, hnew⟩ := hallowed
  have hpending : pool.pending = [] := by
    rw [pending, htodo]
    rfl
  have hsettled := cleanup_settled settings haccounted.tracked hdied
  have hdelivered := cleanup_delivered settings haccounted.tracked hdied
  have hrest := cleanup_pending settings haccounted.tracked hdied
  refine haccounted.of_perm (pool.callbacks settings) (cleanup_tracked settings haccounted.tracked hdied) ?_ ?_ hnodup ?_
    (fun _ => .inl) ?_ ?_
  · rw [whereabouts, whereabouts, hpending, List.append_nil]
    calc List.Perm _ ((pool.cleanup settings).settled ++ (pool.requeued ++ pool.callbacks settings))
          := hrest.append_left _
      List.Perm _ _ := .of_eq (List.append_assoc _ _ _).symm
      List.Perm _ _ := hsettled.append_right _
  · rw [hpending, List.append_nil]
    calc List.Perm _
          ((pool.cleanup settings).delivered ++ (pool.requeued ++ pool.callbacks settings))
          := hrest.append_left _
      List.Perm _ _ := .of_eq (List.append_assoc _ _ _).symm
      List.Perm _ _ := hdelivered.append_right _
  · intro uuid huuid
    simpa [hpending] using hnew uuid huuid
  · intro uuid huuid
    exact haccounted.settled uuid (hsettled.subset (List.mem_append_left _ huuid))
  · intro uuid huuid
    exact haccounted.delivered uuid (hdelivered.subset (List.mem_append_left _ huuid))

theorem act_moves (haccounted : pool.Accounted) {choice : Choice} {action : Action}
    {rest : List Action} (htodo : pool.todo = action :: rest)
    (hallowed : Allowed settings pool (.continue choice)) :
    Moves pool (pool.act settings choice action) action.message?.toList := by
  cases action with
  | ensureWorker =>
    rw [act]
    split
    · exact up_moves haccounted.tracked choice.forked
    · exact .refl haccounted.tracked
  | grow => exact grow_moves haccounted.tracked choice.forked
  | place message =>
    have hroom : (pool.firstTried choice).any (pool.hasRoom settings) = true :=
      hallowed (by rw [htodo]; rfl)
    refine place_moves haccounted.tracked hroom fun hsettled => ?_
    have honce := List.disjoint_of_nodup_append haccounted.once
    refine honce hsettled ?_
    simp [pending, htodo, Action.message?]

theorem continue_accounted (haccounted : pool.Accounted) {choice : Choice} {action : Action}
    {rest : List Action} (htodo : pool.todo = action :: rest)
    (hallowed : Allowed settings pool (.continue choice)) :
    { pool.act settings choice action with todo := rest }.Accounted := by
  refine haccounted.of_moves rest (act_moves haccounted htodo hallowed) ?_
  rw [pending, htodo]
  cases action <;> rfl

theorem workerRead_moves (htracked : ∀ worker ∈ pool.workers, worker.Tracked) {index : ℕ}
    {worker : PoolWorker} (hworker : pool.workers[index]? = some worker)
    (hread : pool.workerRead index worker = some pool') : Moves pool pool' [] := by
  have hold := htracked worker (List.mem_of_getElem? hworker)
  rw [workerRead] at hread
  split at hread
  · next hready =>
    have hcurrent : worker.current = none := by
      simpa using (Bool.and_eq_true_iff.mp hready).2
    split at hread
    · simp at hread
    · next queue hqueue =>
      obtain rfl := Option.some.inj hread
      have hwaiting : worker.waiting = queue.filterMap Item.uuid? := by
        rw [PoolWorker.waiting, hqueue]
        rfl
      refine .of_setWorker htracked hworker ?_ rfl hwaiting.symm
      rw [PoolWorker.Tracked, hwaiting] at hold
      exact hold
    · next message queue hqueue =>
      obtain rfl := Option.some.inj hread
      have hwaiting : worker.waiting = message :: queue.filterMap Item.uuid? := by
        rw [PoolWorker.waiting, hqueue]
        rfl
      refine .of_worker htracked [] [message] hworker ?_ (by simp) ?_ rfl
        rfl (by simp [setWorker]) rfl rfl (by simp [setWorker])
      · rw [PoolWorker.Tracked, hwaiting, hcurrent] at hold
        exact hold
      · rw [hwaiting, List.append_nil]
        exact List.perm_append_comm
  · simp at hread

theorem workerFinish_moves (htracked : ∀ worker ∈ pool.workers, worker.Tracked) {index : ℕ}
    {worker : PoolWorker} (hworker : pool.workers[index]? = some worker)
    (hfinish : pool.workerFinish index worker = some pool') : Moves pool pool' [] := by
  have hold := htracked worker (List.mem_of_getElem? hworker)
  rw [workerFinish] at hfinish
  split at hfinish
  · obtain ⟨message, hcurrent, rfl⟩ := Option.map_eq_some_iff.mp hfinish
    refine .of_setWorker htracked hworker ?_ rfl rfl
    rw [PoolWorker.Tracked, hcurrent] at hold
    simpa [PoolWorker.Tracked, PoolWorker.waiting] using hold
  · simp at hfinish

theorem step_accounted (haccounted : pool.Accounted) {event : Event}
    (hallowed : Allowed settings pool event) (hstep : pool.step settings event = some pool') :
    pool'.Accounted := by
  have htracked := haccounted.tracked
  cases event with
  | write message =>
    rw [step] at hstep
    split at hstep
    · next htodo =>
      obtain rfl := Option.some.inj hstep
      exact write_accounted haccounted hallowed htodo
    · simp at hstep
  | cleanup =>
    rw [step] at hstep
    split at hstep
    · next htodo =>
      obtain rfl := Option.some.inj hstep
      exact cleanup_accounted haccounted hallowed htodo
    · simp at hstep
  | up forked =>
    rw [step] at hstep
    split at hstep
    · obtain rfl := Option.some.inj hstep
      exact haccounted.of_stay (up_moves htracked forked)
    · simp at hstep
  | «continue» choice =>
    rw [step] at hstep
    split at hstep
    · simp at hstep
    · next action rest htodo =>
      split at hstep
      · obtain rfl := Option.some.inj hstep
        exact continue_accounted haccounted htodo hallowed
      · simp at hstep
  | calculate index =>
    obtain rfl := Option.some.inj hstep
    exact haccounted.of_stay (calculate_moves htracked index)
  | quit index =>
    obtain ⟨worker, hworker, rfl⟩ := Option.map_eq_some_iff.mp hstep
    have hwaiting : { worker with queue := worker.queue ++ [Item.quit] }.waiting = worker.waiting := by
      simp [PoolWorker.waiting, Item.uuid?]
    refine haccounted.of_stay (.of_setWorker htracked hworker ?_ rfl hwaiting)
    rw [PoolWorker.Tracked, hwaiting]
    exact htracked worker (List.mem_of_getElem? hworker)
  | workerRead index =>
    obtain ⟨worker, hworker, hread⟩ := Option.bind_eq_some_iff.mp hstep
    exact haccounted.of_stay (workerRead_moves htracked hworker hread)
  | workerFinish index =>
    obtain ⟨worker, hworker, hfinish⟩ := Option.bind_eq_some_iff.mp hstep
    exact haccounted.of_stay (workerFinish_moves htracked hworker hfinish)
  | workerExit index =>
    obtain ⟨worker, hworker, rfl⟩ := Option.map_eq_some_iff.mp hstep
    exact haccounted.of_stay (.of_setWorker htracked hworker
      (htracked worker (List.mem_of_getElem? hworker)) rfl rfl)

theorem accounted_of_run
    (hrun : Run (step settings) (Allowed settings) empty pool) : pool.Accounted :=
  hrun.invariant Accounted empty_accounted fun _ _ _ haccounted hallowed hstep =>
    step_accounted haccounted hallowed hstep

/-! ## No message is lost or run twice -/

/-- Every accepted message is in one place, no message is performed twice, and a
cleanup writes what waits on the queue of a dead worker again without handing it
to the reaper. -/
structure MessagesKept (settings : Settings) (allowed : Pool → Event → Prop) (pool : Pool) :
    Prop where
  tracked : ∀ worker ∈ pool.workers, worker.Tracked
  once : ∀ uuid ∈ pool.accepted, pool.whereabouts.count uuid = 1
  performedOnce : pool.performed.Nodup
  requeued : ∀ pool', allowed pool .cleanup → pool.step settings .cleanup = some pool' →
    ∀ worker ∈ pool.workers, worker.alive = false → ∀ uuid ∈ worker.waiting,
      uuid ∈ pool'.pending ∧ uuid ∉ pool'.reaped

theorem requeued_of_cleanup (haccounted : pool.Accounted)
    (hallowed : Allowed settings pool .cleanup) (hstep : pool.step settings .cleanup = some pool')
    {worker : PoolWorker} (hworker : worker ∈ pool.workers) (hdead : worker.alive = false)
    {uuid : Uuid} (huuid : uuid ∈ worker.waiting) : uuid ∈ pool'.pending ∧ uuid ∉ pool'.reaped := by
  have haccounted' := step_accounted haccounted hallowed hstep
  rw [step] at hstep
  split at hstep
  · obtain rfl := Option.some.inj hstep
    have hrequeued : uuid ∈ pool.requeued := by
      refine List.mem_flatMap.mpr ⟨worker, hworker, ?_⟩
      simpa [PoolWorker.requeued, hdead] using huuid
    have hpending : uuid ∈ (pool.cleanup settings).pending :=
      (cleanup_pending settings haccounted.tracked hallowed.1).mem_iff.mpr
        (List.mem_append_left _ hrequeued)
    refine ⟨hpending, fun hreaped => ?_⟩
    exact List.disjoint_of_nodup_append haccounted'.once (List.mem_append_right _ hreaped) hpending
  · simp at hstep

theorem messagesKept_of_run
    (hrun : Run (step settings) (Allowed settings) empty pool) :
    MessagesKept settings (Allowed settings) pool := by
  have haccounted := accounted_of_run hrun
  refine ⟨haccounted.tracked, ?_, ?_, ?_⟩
  · intro uuid huuid
    exact List.count_eq_one_of_mem haccounted.once (haccounted.covered uuid huuid)
  · exact (List.nodup_append'.mp (List.nodup_append'.mp haccounted.deliveredOnce).1).1
  · intro pool' hallowed hstep worker hworker hdead uuid huuid
    exact requeued_of_cleanup haccounted hallowed hstep hworker hdead huuid

def oneWorker : Settings where
  queueSize := 10
  minWorkers := 1
  maxWorkers := 1
  errbacks _ := []

def first : Choice where
  forked := true
  order := [0]
  preferred := 0

theorem messagesKept_died_running :
    ∃ pool, Run (step oneWorker) (Allowed oneWorker) empty pool ∧
      pool.reaped = [7] ∧ pool.pending = [8] ∧
      MessagesKept oneWorker (Allowed oneWorker) pool := by
  have hruns : ([Event.up true, .write 7, .continue first, .continue first, .workerRead 0,
      .write 8, .continue first, .continue first, .workerExit 0, .cleanup].foldlM
        (fun pool event => if Allowed oneWorker pool event then step oneWorker pool event else none)
        empty).any (fun pool => decide (pool.reaped = [7]) && decide (pool.pending = [8])) =
      true := by decide
  obtain ⟨pool, hpool, htest⟩ := Option.any_eq_true .. |>.mp hruns
  simp only [Bool.and_eq_true, decide_eq_true_eq] at htest
  have hrun := run_of_checked _ hpool
  exact ⟨pool, hrun, htest.1, htest.2, messagesKept_of_run hrun⟩

theorem reaped_and_requeued :
    ¬ ∀ pool, Run (step oneWorker) (fun _ _ => True) empty pool →
      MessagesKept oneWorker (fun _ _ => True) pool := by
  intro hclaim
  have htwice : ([Event.up true, .write 7, .continue first, .continue first, .workerExit 0,
      .cleanup].foldlM (step oneWorker) empty).any (fun pool =>
        decide (7 ∈ pool.accepted) && decide (pool.whereabouts.count 7 = 2)) = true := by decide
  obtain ⟨pool, hrun, htest⟩ := exists_run_of_any _ htwice
  simp only [Bool.and_eq_true, decide_eq_true_eq] at htest
  have honce := (hclaim pool hrun).once 7 htest.1
  omega

end Pool

end Forail.Dispatch
