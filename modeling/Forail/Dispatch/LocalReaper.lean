import Forail.Dispatch.MessageAccounting
import Forail.Models.UnifiedJobs

/-!
# The local reaper

The heartbeat of a node fails the running jobs that its pool does not work on.  The dispatcher
binds the time and the tracked messages to the heartbeat when it is written; the query, and the
change of each job that it found, come at some time after that, between any other steps.
-/

namespace Forail.Dispatch

open Forail.Runs Forail.UnifiedJobs

/-- The row of a job; no task id is the empty one. -/
structure JobRow where
  status : JobStatus
  started : Option ℕ
  celeryTaskId : Option Uuid
  controllerNode : String
  executionNode : String
  isWorkflowJob : Bool
  deriving DecidableEq, Repr

/-- The arguments that `add_bind_kwargs` gives to `cluster_node_heartbeat`. -/
structure Heartbeat where
  dispatchTime : ℕ
  workerTasks : List (List Uuid)
  deriving DecidableEq, Repr

def Heartbeat.activeTaskIds (heartbeat : Heartbeat) : List Uuid := heartbeat.workerTasks.flatten

/-- The filter of `reaper.reap` in the heartbeat of the node. -/
def JobRow.Reaped (hostname : String) (heartbeat : Heartbeat) (job : JobRow) : Prop :=
  job.status = .running ∧ (job.executionNode = hostname ∨ job.controllerNode = hostname) ∧
    job.isWorkflowJob = false ∧ (∃ time ∈ job.started, time ≤ heartbeat.dispatchTime) ∧
    ∀ uuid ∈ job.celeryTaskId, uuid ∉ heartbeat.activeTaskIds

instance (hostname : String) (heartbeat : Heartbeat) :
    DecidablePred (JobRow.Reaped hostname heartbeat) := fun _ =>
  inferInstanceAs (Decidable (_ ∧ _ ∧ _ ∧ _ ∧ _))

/-- A node with the jobs of the database.  `binding` is the heartbeat whose arguments the main
process is collecting, and `found` are the jobs that queries found and that are still to be
changed.  Each reading of the clock gives a later time. -/
structure Node where
  pool : Pool
  clock : ℕ
  jobs : List JobRow
  binding : Option Heartbeat
  heartbeats : List Heartbeat
  found : List ℕ

namespace Node

variable (settings : Settings) (hostname : String) (node : Node)

def start : Node where
  pool := .empty
  clock := 0
  jobs := []
  binding := none
  heartbeats := []
  found := []

inductive Event where
  | pool (event : Pool.Event)
  /-- `start_task` of the task manager. -/
  | launch (job : JobRow)
  /-- The process of a worker sets the job that it was told to run to running. -/
  | run (worker pk : ℕ)
  /-- `spawn_project_sync` in the process of a worker. -/
  | sync (worker : ℕ)
  | runElsewhere (pk : ℕ)
  /-- Any process ends a job. -/
  | finish (pk : ℕ) (status : JobStatus)
  | stamp
  /-- The loop of `add_bind_kwargs` comes to the next worker, or to its end. -/
  | bind
  | query (heartbeat : ℕ)
  | reap (pk : ℕ)

def ofWorker : Pool.Event → Bool
  | .workerRead _ | .workerFinish _ | .workerExit _ => true
  | _ => false

def launched (job : JobRow) : JobRow :=
  { job with
    status := if job.isWorkflowJob then .running else .waiting
    started := if job.isWorkflowJob then some node.clock else none }

/-- `update_model(pk, status='running')`, where `save` notes the start. -/
def running (job : JobRow) : JobRow :=
  { job with status := .running, started := job.started.or (some node.clock) }

def setJob (pk : ℕ) (job : JobRow) : Node := { node with jobs := node.jobs.set pk job }

def bindWorker (heartbeat : Heartbeat) : Node :=
  let index := heartbeat.workerTasks.length
  let pool := node.pool.calculate index
  match pool.workers[index]? with
  | none => { node with binding := none, heartbeats := node.heartbeats ++ [heartbeat] }
  | some worker =>
      { node with
        pool := pool
        binding := some { heartbeat with
          workerTasks := heartbeat.workerTasks ++ [worker.managedTasks] } }

def reapQuery (heartbeat : Heartbeat) : List ℕ :=
  (List.range node.jobs.length).filter fun pk =>
    (node.jobs[pk]?).any fun job => decide (job.Reaped hostname heartbeat)

/-- While arguments are collected the main process does nothing else. -/
def step : Event → Option Node
  | .pool event =>
      if node.binding = none ∨ ofWorker event then
        (node.pool.step settings event).map fun pool => { node with pool := pool }
      else none
  | .launch job =>
      some { node with jobs := node.jobs ++ [node.launched job], clock := node.clock + 1 }
  | .run index pk =>
      (node.jobs[pk]?).bind fun job =>
        if job.status.Active ∧ job.controllerNode = hostname ∧ job.celeryTaskId.isSome ∧
            (node.pool.workers[index]?).bind PoolWorker.current = job.celeryTaskId then
          some { node.setJob pk (node.running job) with clock := node.clock + 1 }
        else none
  | .sync index =>
      ((node.pool.workers[index]?).bind PoolWorker.current).map fun uuid =>
        { node with
          jobs := node.jobs ++ [⟨.running, some node.clock, some uuid, hostname, hostname, false⟩]
          clock := node.clock + 1 }
  | .runElsewhere pk =>
      (node.jobs[pk]?).bind fun job =>
        if job.status.Active ∧ job.controllerNode ≠ hostname then
          some { node.setJob pk (node.running job) with clock := node.clock + 1 }
        else none
  | .finish pk status =>
      (node.jobs[pk]?).bind fun job =>
        if status.Active then none else some (node.setJob pk { job with status := status })
  | .stamp =>
      if node.binding = none ∧ node.pool.todo = [] then
        some { node with binding := some ⟨node.clock, []⟩, clock := node.clock + 1 }
      else none
  | .bind => node.binding.map node.bindWorker
  | .query index =>
      (node.heartbeats[index]?).map fun heartbeat =>
        { node with found := node.found ++ node.reapQuery hostname heartbeat }
  | .reap pk =>
      if pk ∈ node.found then
        (node.jobs[pk]?).map fun job =>
          { node.setJob pk { job with
              status := if job.status ∈ [.running, .waiting] then .failed else job.status } with
            found := node.found.erase pk }
      else none

/-- The pool keeps its messages. -/
def Allowed : Event → Prop
  | .pool event => node.pool.Allowed settings event
  | _ => True

instance (event : Event) : Decidable (node.Allowed settings event) :=
  match event with
  | .pool event => inferInstanceAs (Decidable (node.pool.Allowed settings event))
  | .launch _ | .run _ _ | .sync _ | .runElsewhere _ | .finish _ _ | .stamp | .bind | .query _
  | .reap _ => inferInstanceAs (Decidable True)

end Node

/-! ## What the log of the pool keeps -/

namespace Pool

/-- Nothing is taken out of the log. -/
structure Grows (pool pool' : Pool) : Prop where
  accepted : pool.accepted ⊆ pool'.accepted
  completed : pool.completed ⊆ pool'.completed
  reaped : pool.reaped ⊆ pool'.reaped

variable {pool pool' pool'' : Pool} {settings : Settings}

theorem Grows.of_eq (haccepted : pool'.accepted = pool.accepted)
    (hcompleted : pool'.completed = pool.completed) (hreaped : pool'.reaped = pool.reaped) :
    Grows pool pool' :=
  ⟨haccepted ▸ List.Subset.refl _, hcompleted ▸ List.Subset.refl _, hreaped ▸ List.Subset.refl _⟩

theorem Grows.trans (hfirst : Grows pool pool') (hsecond : Grows pool' pool'') :
    Grows pool pool'' :=
  ⟨List.Subset.trans hfirst.accepted hsecond.accepted,
    List.Subset.trans hfirst.completed hsecond.completed,
    List.Subset.trans hfirst.reaped hsecond.reaped⟩

theorem calculate_grows (pool : Pool) (index : ℕ) : Grows pool (pool.calculate index) := by
  rw [calculate]
  split
  · exact .of_eq rfl rfl rfl
  · exact ⟨List.Subset.refl _, List.subset_append_left _ _, List.Subset.refl _⟩

theorem foldl_calculate_grows (indices : List ℕ) (pool : Pool) :
    Grows pool (indices.foldl calculate pool) := by
  induction indices generalizing pool with
  | nil => exact .of_eq rfl rfl rfl
  | cons index indices ih => exact (calculate_grows pool index).trans (ih _)

theorem up_grows (pool : Pool) (forked : Bool) : Grows pool (pool.up settings forked) := by
  rw [up]
  split
  · exact .of_eq rfl rfl rfl
  · exact .of_eq rfl rfl rfl

theorem grow_grows (pool : Pool) (forked : Bool) : Grows pool (pool.grow settings forked) := by
  have hcalculated : Grows pool pool.calculateAll := foldl_calculate_grows _ pool
  rw [grow]
  split
  · exact up_grows pool forked
  · split
    · exact hcalculated.trans (up_grows _ forked)
    · exact hcalculated

theorem put_grows (pool : Pool) (index : ℕ) (message : Uuid) :
    Grows pool (pool.put settings index message).1 := by
  rw [put]
  split
  · exact .of_eq rfl rfl rfl
  · split
    · refine Grows.trans ?_ (calculate_grows _ index)
      refine ⟨?_, List.Subset.refl _, List.Subset.refl _⟩
      dsimp only
      split
      · exact List.Subset.refl _
      · exact List.subset_cons_self _ _
    · exact .of_eq rfl rfl rfl

theorem findIdle_grows (order : List ℕ) (pool : Pool) : Grows pool (pool.findIdle order).1 := by
  induction order generalizing pool with
  | nil => exact .of_eq rfl rfl rfl
  | cons index order ih =>
    rw [findIdle]
    split
    · exact calculate_grows pool index
    · exact (calculate_grows pool index).trans (ih _)

theorem writeFirst_grows (message : Uuid) (order : List ℕ) (pool : Pool) :
    Grows pool (pool.writeFirst settings message order) := by
  induction order generalizing pool with
  | nil => exact .of_eq rfl rfl rfl
  | cons index order ih =>
    have hput : Grows pool (pool.put settings index message).1 := put_grows pool index message
    rw [writeFirst]
    split
    · next hresult =>
      rw [hresult] at hput
      exact hput
    · next hresult =>
      rw [hresult] at hput
      exact hput.trans (ih _)

theorem act_grows (pool : Pool) (choice : Choice) (action : Action) :
    Grows pool (pool.act settings choice action) := by
  cases action with
  | ensureWorker =>
    rw [act]
    split
    · exact up_grows pool choice.forked
    · exact .of_eq rfl rfl rfl
  | grow => exact grow_grows pool choice.forked
  | place message =>
    have hfound := findIdle_grows choice.order pool
    rw [act, place]
    split
    · next hresult =>
      rw [hresult] at hfound
      exact hfound.trans (put_grows _ _ message)
    · next hresult =>
      rw [hresult] at hfound
      exact hfound.trans (writeFirst_grows message _ _)

theorem visitAll_grows (settings : Settings) (workers : List PoolWorker) (cleanup : Cleanup) :
    cleanup.completed ⊆ (cleanup.visitAll settings workers).completed ∧
      cleanup.reaped ⊆ (cleanup.visitAll settings workers).reaped := by
  induction workers generalizing cleanup with
  | nil => exact ⟨List.Subset.refl _, List.Subset.refl _⟩
  | cons worker workers ih =>
    have hvisit : cleanup.completed ⊆
          (cleanup.visit settings (workers.length + 1) worker).completed ∧
        cleanup.reaped ⊆ (cleanup.visit settings (workers.length + 1) worker).reaped := by
      rw [Cleanup.visit]
      split
      · split
        · exact ⟨List.subset_append_left _ _, List.Subset.refl _⟩
        · exact ⟨List.subset_append_left _ _, List.Subset.refl _⟩
      · exact ⟨List.subset_append_left _ _, List.subset_append_left _ _⟩
    rw [Cleanup.visitAll]
    exact ⟨List.Subset.trans hvisit.1 (ih _).1, List.Subset.trans hvisit.2 (ih _).2⟩

theorem step_grows {event : Event} (hstep : pool.step settings event = some pool') :
    Grows pool pool' := by
  cases event with
  | write message =>
    obtain ⟨-, heq⟩ := Option.ite_none_right_eq_some.mp hstep
    obtain rfl := Option.some.inj heq
    exact .of_eq rfl rfl rfl
  | cleanup =>
    obtain ⟨-, heq⟩ := Option.ite_none_right_eq_some.mp hstep
    obtain rfl := Option.some.inj heq
    have hvisited := visitAll_grows settings pool.workers ⟨[], pool.completed, pool.reaped, []⟩
    exact ⟨List.Subset.refl _, hvisited.1, hvisited.2⟩
  | up forked =>
    obtain ⟨-, heq⟩ := Option.ite_none_right_eq_some.mp hstep
    exact Option.some.inj heq ▸ up_grows pool forked
  | «continue» choice =>
    rw [step] at hstep
    split at hstep
    · cases hstep
    · obtain ⟨-, heq⟩ := Option.ite_none_right_eq_some.mp hstep
      obtain rfl := Option.some.inj heq
      exact (act_grows pool choice _).trans (.of_eq rfl rfl rfl)
  | calculate index => exact Option.some.inj hstep ▸ calculate_grows pool index
  | quit index =>
    obtain ⟨worker, -, rfl⟩ := Option.map_eq_some_iff.mp hstep
    exact .of_eq rfl rfl rfl
  | workerRead index =>
    obtain ⟨worker, -, hread⟩ := Option.bind_eq_some_iff.mp hstep
    obtain ⟨-, hread⟩ := Option.ite_none_right_eq_some.mp hread
    split at hread
    · cases hread
    · obtain rfl := Option.some.inj hread
      exact .of_eq rfl rfl rfl
    · obtain rfl := Option.some.inj hread
      exact .of_eq rfl rfl rfl
  | workerFinish index =>
    obtain ⟨worker, -, hfinish⟩ := Option.bind_eq_some_iff.mp hstep
    obtain ⟨-, hfinish⟩ := Option.ite_none_right_eq_some.mp hfinish
    obtain ⟨message, -, rfl⟩ := Option.map_eq_some_iff.mp hfinish
    exact .of_eq rfl rfl rfl
  | workerExit index =>
    obtain ⟨worker, -, rfl⟩ := Option.map_eq_some_iff.mp hstep
    exact .of_eq rfl rfl rfl

theorem calculate_accounted (settings : Settings) (haccounted : pool.Accounted) (index : ℕ) :
    (pool.calculate index).Accounted := by
  have hallowed : Allowed settings pool (.calculate index) := trivial
  exact step_accounted haccounted hallowed rfl

/-- A message is finished, as the main process knows, or it was handed to the reaper. -/
def Over (pool : Pool) (uuid : Uuid) : Prop := uuid ∈ pool.completed ∨ uuid ∈ pool.reaped

theorem Grows.over_of_over (hgrows : Grows pool pool') {uuid : Uuid} (hover : pool.Over uuid) :
    pool'.Over uuid :=
  hover.imp (fun huuid => hgrows.completed huuid) (fun huuid => hgrows.reaped huuid)

theorem Accounted.over_of_unheld (haccounted : pool.Accounted) (htodo : pool.todo = [])
    {uuid : Uuid} (haccepted : uuid ∈ pool.accepted) (hunheld : uuid ∉ pool.held) :
    pool.Over uuid := by
  have hplace := haccounted.covered uuid haccepted
  rw [whereabouts, pending, htodo, List.filterMap_nil, List.append_nil, Pool.settled,
    List.mem_append, List.mem_append] at hplace
  rcases hplace with (hheld | hcompleted) | hreaped
  · exact absurd hheld hunheld
  · exact .inl hcompleted
  · exact .inr hreaped

theorem Accounted.unheld_of_over (haccounted : pool.Accounted) {uuid : Uuid}
    (hover : pool.Over uuid) : uuid ∉ pool.held := by
  have hsettled : (pool.held ++ (pool.completed ++ pool.reaped)).Nodup := by
    have honce := (List.nodup_append'.mp haccounted.once).1
    rwa [Pool.settled, List.append_assoc] at honce
  exact fun hheld => List.disjoint_of_nodup_append hsettled hheld (List.mem_append.mpr hover)

/-- No worker performs such a message or has it on its queue. -/
theorem Accounted.idle_of_over (haccounted : pool.Accounted) {uuid : Uuid}
    (hover : pool.Over uuid) {worker : PoolWorker} (hworker : worker ∈ pool.workers) :
    worker.current ≠ some uuid ∧ uuid ∉ worker.waiting := by
  have huntracked : uuid ∉ worker.managedTasks := fun hmanaged =>
    haccounted.unheld_of_over hover (List.mem_flatMap.mpr ⟨worker, hworker, hmanaged⟩)
  rw [haccounted.tracked worker hworker, List.mem_append, List.mem_append] at huntracked
  refine ⟨fun hcurrent => huntracked (.inr (.inl ?_)), fun hwaiting =>
    huntracked (.inr (.inr hwaiting))⟩
  rw [hcurrent]
  exact List.mem_singleton_self uuid

theorem Accounted.accepted_of_current (haccounted : pool.Accounted) {index : ℕ} {uuid : Uuid}
    (hcurrent : (pool.workers[index]?).bind PoolWorker.current = some uuid) :
    uuid ∈ pool.accepted := by
  obtain ⟨worker, hworker, huuid⟩ := Option.bind_eq_some_iff.mp hcurrent
  have hmember := List.mem_of_getElem? hworker
  have hmanaged : uuid ∈ worker.managedTasks := by
    rw [haccounted.tracked worker hmember, huuid]
    exact List.mem_append_right _ (List.mem_append_left _ (List.mem_singleton_self uuid))
  exact haccounted.settled uuid (List.mem_append_left _ (List.mem_append_left _
    (List.mem_flatMap.mpr ⟨worker, hmember, hmanaged⟩)))

def tracked (pool : Pool) : List (List Uuid) := pool.workers.map PoolWorker.managedTasks

theorem tracked_setWorker {index : ℕ} {old new : PoolWorker}
    (hold : pool.workers[index]? = some old) (hnew : new.managedTasks = old.managedTasks) :
    (pool.setWorker index new).tracked = pool.tracked := by
  obtain ⟨hindex, rfl⟩ := List.getElem?_eq_some_iff.mp hold
  rw [tracked, setWorker, List.map_set, hnew, tracked, ← List.getElem_map PoolWorker.managedTasks]
  exact List.set_getElem_self (by simpa using hindex)

theorem tracked_of_worker {event : Event} (hevent : Node.ofWorker event = true)
    (hstep : pool.step settings event = some pool') :
    pool'.tracked = pool.tracked ∧ pool'.todo = pool.todo := by
  cases event with
  | workerRead index =>
    obtain ⟨worker, hworker, hread⟩ := Option.bind_eq_some_iff.mp hstep
    obtain ⟨-, hread⟩ := Option.ite_none_right_eq_some.mp hread
    split at hread
    · cases hread
    · obtain rfl := Option.some.inj hread
      exact ⟨tracked_setWorker hworker rfl, rfl⟩
    · obtain rfl := Option.some.inj hread
      exact ⟨tracked_setWorker hworker rfl, rfl⟩
  | workerFinish index =>
    obtain ⟨worker, hworker, hfinish⟩ := Option.bind_eq_some_iff.mp hstep
    obtain ⟨-, hfinish⟩ := Option.ite_none_right_eq_some.mp hfinish
    obtain ⟨message, -, rfl⟩ := Option.map_eq_some_iff.mp hfinish
    exact ⟨tracked_setWorker hworker rfl, rfl⟩
  | workerExit index =>
    obtain ⟨worker, hworker, rfl⟩ := Option.map_eq_some_iff.mp hstep
    exact ⟨tracked_setWorker hworker rfl, rfl⟩
  | write | cleanup | up | «continue» | calculate | quit => cases hevent

theorem tracked_calculate {index : ℕ} {worker : PoolWorker}
    (hworker : (pool.calculate index).workers[index]? = some worker) :
    (pool.calculate index).tracked.take (index + 1) =
      pool.tracked.take index ++ [worker.managedTasks] := by
  have htake : (pool.calculate index).tracked.take index = pool.tracked.take index := by
    rw [calculate]
    split
    · rfl
    · rw [tracked, List.map_set, List.take_set_of_le (Nat.le_refl index)]
      rfl
  have hlast : (pool.calculate index).tracked[index]? = some worker.managedTasks := by
    rw [tracked, List.getElem?_map, hworker]
    rfl
  rw [List.take_add_one, htake, hlast]
  rfl

end Pool

/-! ## What a heartbeat knows -/

/-- The dispatcher of the node runs the job. -/
def JobRow.Mine (hostname : String) (job : JobRow) : Prop :=
  job.controllerNode = hostname ∧ job.isWorkflowJob = false

/-- What no step changes in a row. -/
structure JobRow.SameJob (job job' : JobRow) : Prop where
  celeryTaskId : job'.celeryTaskId = job.celeryTaskId
  controllerNode : job'.controllerNode = job.controllerNode
  isWorkflowJob : job'.isWorkflowJob = job.isWorkflowJob
  started : ∀ time ∈ job.started, time ∈ job'.started

theorem JobRow.SameJob.refl (job : JobRow) : SameJob job job :=
  ⟨rfl, rfl, rfl, fun _ htime => htime⟩

theorem JobRow.SameJob.mine {hostname : String} {job job' : JobRow} (hsame : SameJob job job') :
    job'.Mine hostname ↔ job.Mine hostname := by
  rw [Mine, Mine, hsame.controllerNode, hsame.isWorkflowJob]

/-- The query of the heartbeat looks for the message of the job. -/
def JobRow.Exposed (hostname : String) (heartbeat : Heartbeat) (job : JobRow) : Prop :=
  job.Mine hostname ∧ job.status = .running ∧ ∃ time ∈ job.started, time ≤ heartbeat.dispatchTime

namespace Node

/-- No worker that the loop of `add_bind_kwargs` has passed holds the message. -/
def Unheld (node : Node) (heartbeat : Heartbeat) (uuid : Uuid) : Prop :=
  ∀ tasks ∈ node.pool.tracked.take heartbeat.workerTasks.length, uuid ∉ tasks

/-- A heartbeat that looks for the job lists its message, unless the message is over; one that is
being bound lists it, unless no worker that was passed holds it. -/
structure JobSound (hostname : String) (node : Node) (job : JobRow) : Prop where
  started : ∀ time ∈ job.started, time < node.clock
  timed : job.status = .running → job.started ≠ none
  fresh : job.Mine hostname → job.status.Active → job.status ≠ .running → job.started = none
  begun : job.Mine hostname → job.status = .running →
    ∃ uuid ∈ job.celeryTaskId, uuid ∈ node.pool.accepted
  bound : ∀ heartbeat ∈ node.heartbeats, job.Exposed hostname heartbeat →
    ∀ uuid ∈ job.celeryTaskId, uuid ∈ heartbeat.activeTaskIds ∨ node.pool.Over uuid
  binding : ∀ heartbeat ∈ node.binding, job.Exposed hostname heartbeat →
    ∀ uuid ∈ job.celeryTaskId, uuid ∈ heartbeat.activeTaskIds ∨ node.Unheld heartbeat uuid

/-- What holds of a node in every run; jobs that were found have messages that are over. -/
structure Sound (hostname : String) (node : Node) : Prop where
  accounted : node.pool.Accounted
  jobs : ∀ job ∈ node.jobs, JobSound hostname node job
  bound : ∀ heartbeat ∈ node.heartbeats, heartbeat.dispatchTime < node.clock
  binding : ∀ heartbeat ∈ node.binding,
    heartbeat.dispatchTime < node.clock ∧ node.pool.todo = []
  found : ∀ pk ∈ node.found, ∃ job ∈ node.jobs[pk]?, job.Mine hostname →
    ∃ uuid ∈ job.celeryTaskId, node.pool.Over uuid

variable {settings : Settings} {hostname : String} {node node' : Node} {job job' : JobRow}

theorem start_sound : start.Sound hostname where
  accounted := Pool.empty_accounted
  jobs := fun _ hjob => absurd hjob List.not_mem_nil
  bound := fun _ hbound => absurd hbound List.not_mem_nil
  binding := nofun
  found := fun _ hfound => absurd hfound List.not_mem_nil

/-! ### Rows of jobs -/

/-- Only rows of jobs have changed, none of them is another job now, and time has passed. -/
structure SamePool (node node' : Node) : Prop where
  pool : node'.pool = node.pool
  clock : node.clock ≤ node'.clock
  binding : node'.binding = node.binding
  heartbeats : node'.heartbeats = node.heartbeats
  found : node'.found ⊆ node.found
  rows : ∀ (pk : ℕ), ∀ job ∈ node.jobs[pk]?, ∃ job' ∈ node'.jobs[pk]?, JobRow.SameJob job job'

theorem rows_append (jobs : List JobRow) (job : JobRow) (pk : ℕ) :
    ∀ old ∈ jobs[pk]?, ∃ new ∈ (jobs ++ [job])[pk]?, JobRow.SameJob old new := by
  intro old hold
  have hlength := (List.getElem?_eq_some_iff.mp hold).1
  exact ⟨old, (List.getElem?_append_left hlength).trans hold, .refl old⟩

theorem rows_set {jobs : List JobRow} {pk : ℕ} (hjob : jobs[pk]? = some job)
    (hsame : JobRow.SameJob job job') (other : ℕ) :
    ∀ old ∈ jobs[other]?, ∃ new ∈ (jobs.set pk job')[other]?, JobRow.SameJob old new := by
  intro old hold
  have hlength := (List.getElem?_eq_some_iff.mp hjob).1
  by_cases hother : pk = other
  · subst hother
    obtain rfl := Option.some.inj (hjob.symm.trans hold)
    exact ⟨job', List.getElem?_set_self hlength, hsame⟩
  · exact ⟨old, (List.getElem?_set_ne hother).trans hold, .refl old⟩

theorem JobSound.of_samePool (hsound : JobSound hostname node job) (hsame : SamePool node node') :
    JobSound hostname node' job where
  started time htime := Nat.lt_of_lt_of_le (hsound.started time htime) hsame.clock
  timed := hsound.timed
  fresh := hsound.fresh
  begun := hsame.pool ▸ hsound.begun
  bound := hsame.pool ▸ hsame.heartbeats ▸ hsound.bound
  binding := by
    rw [hsame.binding]
    intro heartbeat hbinding hexposed uuid huuid
    rw [Unheld, hsame.pool]
    exact hsound.binding heartbeat hbinding hexposed uuid huuid

/-- No heartbeat so far looks for the job. -/
theorem JobSound.of_unexposed (hstarted : ∀ time ∈ job.started, time < node.clock)
    (htimed : job.status = .running → job.started ≠ none)
    (hfresh : job.Mine hostname → job.status.Active → job.status ≠ .running → job.started = none)
    (hbegun : job.Mine hostname → job.status = .running →
      ∃ uuid ∈ job.celeryTaskId, uuid ∈ node.pool.accepted)
    (hunexposed : ∀ heartbeat, heartbeat ∈ node.heartbeats ∨ heartbeat ∈ node.binding →
      ¬ job.Exposed hostname heartbeat) : JobSound hostname node job where
  started := hstarted
  timed := htimed
  fresh := hfresh
  begun := hbegun
  bound heartbeat hbound hexposed := absurd hexposed (hunexposed heartbeat (.inl hbound))
  binding heartbeat hbinding hexposed := absurd hexposed (hunexposed heartbeat (.inr hbinding))

theorem JobSound.of_ended (hsound : JobSound hostname node job) {status : JobStatus}
    (hstatus : ¬ status.Active) : JobSound hostname node { job with status := status } := by
  have hstopped : status ≠ .running := fun hrunning => hstatus (hrunning ▸ by decide)
  exact .of_unexposed hsound.started (fun hrunning => absurd hrunning hstopped)
    (fun _ hactive => absurd hactive hstatus)
    (fun _ hrunning => absurd hrunning hstopped)
    (fun _ _ hexposed => hstopped hexposed.2.1)

theorem Sound.time_lt (hsound : node.Sound hostname) {heartbeat : Heartbeat}
    (hheartbeat : heartbeat ∈ node.heartbeats ∨ heartbeat ∈ node.binding) :
    heartbeat.dispatchTime < node.clock := by
  rcases hheartbeat with hbound | hbinding
  · exact hsound.bound heartbeat hbound
  · exact (hsound.binding heartbeat hbinding).1

/-- A job that starts now starts after each heartbeat. -/
theorem Sound.not_exposed (hsound : node.Sound hostname) (hstarted : job.started = some node.clock)
    {heartbeat : Heartbeat} (hheartbeat : heartbeat ∈ node.heartbeats ∨ heartbeat ∈ node.binding) :
    ¬ job.Exposed hostname heartbeat := by
  rintro ⟨-, -, time, htime, hle⟩
  rw [hstarted] at htime
  obtain rfl := Option.some.inj htime
  exact Nat.not_lt_of_le hle (hsound.time_lt hheartbeat)

theorem Sound.starting (hsound : node.Sound hostname) (hstarted : job.started = some node.clock)
    (hrunning : job.status = .running)
    (hbegun : job.Mine hostname → ∃ uuid ∈ job.celeryTaskId, uuid ∈ node.pool.accepted)
    (hsame : SamePool node node') (hclock : node'.clock = node.clock + 1) :
    JobSound hostname node' job := by
  refine .of_unexposed ?_ (fun _ => by simp [hstarted])
    (fun _ _ hstopped => absurd hrunning hstopped) ?_ ?_
  · intro time htime
    obtain rfl := Option.some.inj (hstarted.symm.trans htime)
    rw [hclock]
    exact Nat.lt_succ_self _
  · intro hmine _
    rw [hsame.pool]
    exact hbegun hmine
  · rw [hsame.heartbeats, hsame.binding]
    exact fun heartbeat => hsound.not_exposed hstarted

/-- A job that is set to running was exposed before, or starts now. -/
theorem Sound.set_running (hsound : node.Sound hostname) (hjob : JobSound hostname node job)
    (hactive : job.status.Active)
    (hbegun : job.Mine hostname → ∃ uuid ∈ job.celeryTaskId, uuid ∈ node.pool.accepted)
    (hsame : SamePool node node') (hclock : node'.clock = node.clock + 1) :
    JobSound hostname node' (node.running job) := by
  cases htime : job.started with
  | none =>
    refine hsound.starting ?_ rfl hbegun hsame hclock
    rw [running, htime]
    rfl
  | some time =>
    have hnew : node.running job = { job with status := .running } := by
      simp only [running, htime, Option.some_or]
    by_cases hrunning : job.status = .running
    · rw [hnew, ← hrunning]
      exact hjob.of_samePool hsame
    · have hother : ¬ job.Mine hostname := fun hmine => by
        have hnone := hjob.fresh hmine hactive hrunning
        simp [htime] at hnone
      rw [hnew]
      have hnew : JobSound hostname node { job with status := .running } :=
        ⟨hjob.started, fun _ => by simp [htime], fun hmine => absurd hmine hother,
          fun hmine => absurd hmine hother, fun _ _ hexposed => absurd hexposed.1 hother,
          fun _ _ hexposed => absurd hexposed.1 hother⟩
      exact hnew.of_samePool hsame

theorem Sound.of_samePool (hsound : node.Sound hostname) (hsame : SamePool node node')
    (hjobs : ∀ job ∈ node'.jobs, job ∈ node.jobs ∨ JobSound hostname node' job) :
    node'.Sound hostname where
  accounted := hsame.pool ▸ hsound.accounted
  jobs job hjob := by
    rcases hjobs job hjob with hold | hnew
    · exact (hsound.jobs job hold).of_samePool hsame
    · exact hnew
  bound := by
    rw [hsame.heartbeats]
    exact fun heartbeat hbound => Nat.lt_of_lt_of_le (hsound.bound heartbeat hbound) hsame.clock
  binding := by
    rw [hsame.binding, hsame.pool]
    exact fun heartbeat hbinding => (hsound.binding heartbeat hbinding).imp_left
      fun htime => Nat.lt_of_lt_of_le htime hsame.clock
  found pk hpk := by
    obtain ⟨job, hjob, hover⟩ := hsound.found pk (hsame.found hpk)
    obtain ⟨job', hjob', hrow⟩ := hsame.rows pk job hjob
    refine ⟨job', hjob', fun hmine => ?_⟩
    rw [hrow.celeryTaskId, hsame.pool]
    exact hover (hrow.mine.mp hmine)

/-! ### Steps -/

/-- A step of the pool; while arguments are collected what the workers hold stays. -/
theorem Sound.of_pool (hsound : node.Sound hostname) {pool : Pool} (haccounted : pool.Accounted)
    (hgrows : node.pool.Grows pool)
    (hworkers : node.binding = none ∨
      pool.tracked = node.pool.tracked ∧ pool.todo = node.pool.todo) :
    { node with pool := pool }.Sound hostname where
  accounted := haccounted
  jobs job hjob :=
    { hsound.jobs job hjob with
      begun := fun hmine hrunning =>
        ((hsound.jobs job hjob).begun hmine hrunning).imp
          fun _ huuid => huuid.imp_right fun haccepted => hgrows.accepted haccepted
      bound := fun heartbeat hbound hexposed uuid huuid =>
        ((hsound.jobs job hjob).bound heartbeat hbound hexposed uuid huuid).imp_right
          hgrows.over_of_over
      binding := by
        intro heartbeat hbinding hexposed uuid huuid
        have hunheld := (hsound.jobs job hjob).binding heartbeat hbinding hexposed uuid huuid
        rcases hworkers with hnone | ⟨htracked, -⟩
        · simp [hnone] at hbinding
        · rwa [Unheld, htracked] }
  bound := hsound.bound
  binding := by
    intro heartbeat hbinding
    rcases hworkers with hnone | ⟨-, htodo⟩
    · simp [hnone] at hbinding
    · exact (hsound.binding heartbeat hbinding).imp_right htodo.trans
  found pk hpk :=
    (hsound.found pk hpk).imp fun _ hjob => hjob.imp_right fun hover hmine =>
      (hover hmine).imp fun _ huuid => huuid.imp_right hgrows.over_of_over

theorem Sound.unbound (hsound : node.Sound hostname) :
    { node with binding := none }.Sound hostname where
  accounted := hsound.accounted
  jobs job hjob := { hsound.jobs job hjob with binding := nofun }
  bound := hsound.bound
  binding := nofun
  found := hsound.found

theorem Sound.with_binding (hsound : node.Sound hostname) {heartbeat : Heartbeat}
    (htime : heartbeat.dispatchTime < node.clock) (htodo : node.pool.todo = [])
    (hjobs : ∀ job ∈ node.jobs, job.Exposed hostname heartbeat → ∀ uuid ∈ job.celeryTaskId,
      uuid ∈ heartbeat.activeTaskIds ∨ node.Unheld heartbeat uuid) :
    { node with binding := some heartbeat }.Sound hostname where
  accounted := hsound.accounted
  jobs job hjob :=
    { hsound.jobs job hjob with
      binding := by
        intro other hother
        obtain rfl := Option.some.inj hother
        exact hjobs job hjob }
  bound := hsound.bound
  binding := by
    intro other hother
    obtain rfl := Option.some.inj hother
    exact ⟨htime, htodo⟩
  found := hsound.found

/-- The loop of `add_bind_kwargs` has passed every worker, so no worker holds what is not listed. -/
theorem Sound.bound_of_binding (hsound : node.Sound hostname) {heartbeat : Heartbeat}
    (hbinding : node.binding = some heartbeat)
    (hend : node.pool.workers.length ≤ heartbeat.workerTasks.length) :
    { node with binding := none, heartbeats := node.heartbeats ++ [heartbeat] }.Sound hostname := by
  obtain ⟨htime, htodo⟩ := hsound.binding heartbeat hbinding
  refine ⟨hsound.accounted, fun job hjob => ?_, fun other hother => ?_, nofun, hsound.found⟩
  · have hold := hsound.jobs job hjob
    refine { hold with bound := fun other hother hexposed uuid huuid => ?_, binding := nofun }
    rcases List.mem_append.mp hother with hbound | hnew
    · exact hold.bound other hbound hexposed uuid huuid
    obtain rfl := List.mem_singleton.mp hnew
    refine (hold.binding other hbinding hexposed uuid huuid).imp_right fun hunheld => ?_
    have hlength : node.pool.tracked.length ≤ other.workerTasks.length := by
      rwa [Pool.tracked, List.length_map]
    rw [Unheld, List.take_of_length_le hlength] at hunheld
    obtain ⟨begun, hbegun, haccepted⟩ := hold.begun hexposed.1 hexposed.2.1
    obtain rfl := Option.some.inj (hbegun.symm.trans huuid)
    refine hsound.accounted.over_of_unheld htodo haccepted fun hheld => ?_
    obtain ⟨worker, hworker, hmanaged⟩ := List.mem_flatMap.mp hheld
    exact hunheld _ (List.mem_map_of_mem hworker) hmanaged
  · rcases List.mem_append.mp hother with hbound | hnew
    · exact hsound.bound other hbound
    · obtain rfl := List.mem_singleton.mp hnew
      exact htime

theorem bindWorker_sound (settings : Settings) (hsound : node.Sound hostname)
    {heartbeat : Heartbeat} (hbinding : node.binding = some heartbeat) :
    (node.bindWorker heartbeat).Sound hostname := by
  have haccounted := Pool.calculate_accounted settings hsound.accounted heartbeat.workerTasks.length
  have hcalculated : { node with
      pool := node.pool.calculate heartbeat.workerTasks.length, binding := none }.Sound hostname :=
    hsound.unbound.of_pool haccounted (Pool.calculate_grows _ _) (.inl rfl)
  obtain ⟨htime, htodo⟩ := hsound.binding heartbeat hbinding
  rw [bindWorker]
  split
  · next hend =>
    refine hsound.bound_of_binding hbinding ?_
    rwa [List.getElem?_eq_none_iff, Pool.length_workers_calculate] at hend
  · next worker hworker =>
    have htodo' := (Pool.calculate_moves hsound.accounted.tracked heartbeat.workerTasks.length).todo
    refine hcalculated.with_binding htime (htodo'.trans htodo) ?_
    intro job hjob hexposed uuid huuid
    have hbefore := (hsound.jobs job hjob).binding heartbeat hbinding hexposed uuid huuid
    rw [Unheld] at hbefore ⊢
    rw [List.length_append, List.length_singleton, Pool.tracked_calculate hworker]
    simp only [Heartbeat.activeTaskIds, List.flatten_append, List.flatten_singleton,
      List.mem_append, List.mem_singleton] at hbefore ⊢
    by_cases hmanaged : uuid ∈ worker.managedTasks
    · exact .inl (.inr hmanaged)
    · refine hbefore.imp .inl fun hunheld tasks htasks => ?_
      rcases htasks with hpassed | rfl
      · exact hunheld tasks hpassed
      · exact hmanaged

theorem stamp_sound (hsound : node.Sound hostname) (htodo : node.pool.todo = []) :
    { node with binding := some ⟨node.clock, []⟩, clock := node.clock + 1 }.Sound hostname := by
  have hlater : { node with binding := none, clock := node.clock + 1 }.Sound hostname :=
    hsound.unbound.of_samePool ⟨rfl, Nat.le_succ _, rfl, rfl, List.Subset.refl _,
      fun _ job hjob => ⟨job, hjob, .refl job⟩⟩ fun _ hjob => .inl hjob
  refine hlater.with_binding (Nat.lt_succ_self _) htodo fun _ _ _ _ _ => .inr ?_
  exact fun _ htasks => absurd htasks List.not_mem_nil

theorem sameJob_running (node : Node) (job : JobRow) : JobRow.SameJob job (node.running job) :=
  ⟨rfl, rfl, rfl, fun time htime => by rw [running, htime]; rfl⟩

def ofRow : Event → Bool
  | .launch _ | .run _ _ | .sync _ | .runElsewhere _ | .finish _ _ | .reap _ => true
  | _ => false

theorem samePool_of_row {event : Event} (hevent : ofRow event = true)
    (hstep : node.step settings hostname event = some node') : SamePool node node' := by
  cases event with
  | launch job =>
    obtain rfl := Option.some.inj hstep
    exact ⟨rfl, Nat.le_succ _, rfl, rfl, List.Subset.refl _, rows_append _ _⟩
  | run index pk =>
    obtain ⟨job, hjob, hrun⟩ := Option.bind_eq_some_iff.mp hstep
    obtain ⟨-, hrun⟩ := Option.ite_none_right_eq_some.mp hrun
    obtain rfl := Option.some.inj hrun
    exact ⟨rfl, Nat.le_succ _, rfl, rfl, List.Subset.refl _,
      rows_set hjob (sameJob_running node job)⟩
  | sync index =>
    obtain ⟨uuid, -, rfl⟩ := Option.map_eq_some_iff.mp hstep
    exact ⟨rfl, Nat.le_succ _, rfl, rfl, List.Subset.refl _, rows_append _ _⟩
  | runElsewhere pk =>
    obtain ⟨job, hjob, hrun⟩ := Option.bind_eq_some_iff.mp hstep
    obtain ⟨-, hrun⟩ := Option.ite_none_right_eq_some.mp hrun
    obtain rfl := Option.some.inj hrun
    exact ⟨rfl, Nat.le_succ _, rfl, rfl, List.Subset.refl _,
      rows_set hjob (sameJob_running node job)⟩
  | finish pk status =>
    obtain ⟨job, hjob, hfinish⟩ := Option.bind_eq_some_iff.mp hstep
    obtain ⟨-, hfinish⟩ := Option.ite_none_left_eq_some.mp hfinish
    obtain rfl := Option.some.inj hfinish
    exact ⟨rfl, Nat.le_refl _, rfl, rfl, List.Subset.refl _,
      rows_set hjob ⟨rfl, rfl, rfl, fun _ htime => htime⟩⟩
  | reap pk =>
    obtain ⟨-, hreap⟩ := Option.ite_none_right_eq_some.mp hstep
    obtain ⟨job, hjob, rfl⟩ := Option.map_eq_some_iff.mp hreap
    exact ⟨rfl, Nat.le_refl _, rfl, rfl, List.erase_subset,
      rows_set hjob ⟨rfl, rfl, rfl, fun _ htime => htime⟩⟩
  | pool | stamp | bind | query => cases hevent

theorem launch_sound (hsound : node.Sound hostname) (job : JobRow) :
    { node with jobs := node.jobs ++ [node.launched job], clock := node.clock + 1 }.Sound
      hostname := by
  refine hsound.of_samePool
    ⟨rfl, Nat.le_succ _, rfl, rfl, List.Subset.refl _, rows_append _ _⟩ fun other hother => ?_
  rcases List.mem_append.mp hother with hold | hnew
  · exact .inl hold
  obtain rfl := List.mem_singleton.mp hnew
  have hwaiting : job.isWorkflowJob = false → (node.launched job).status ≠ .running := by
    intro hjob
    simp [launched, hjob]
  refine .inr (.of_unexposed ?_ ?_ (fun hmine _ _ => if_neg (ne_true_of_eq_false hmine.2)) ?_ ?_)
  · intro time htime
    rw [launched] at htime
    obtain ⟨-, htime⟩ := Option.ite_none_right_eq_some.mp htime
    obtain rfl := Option.some.inj htime
    exact Nat.lt_succ_self _
  · intro hrunning
    cases hworkflow : job.isWorkflowJob with
    | true => simp [launched, hworkflow]
    | false => exact absurd hrunning (hwaiting hworkflow)
  · exact fun hmine hrunning => absurd hrunning (hwaiting hmine.2)
  · exact fun _ _ hexposed => hwaiting hexposed.1.2 hexposed.2.1

theorem Sound.of_setJob (hsound : node.Sound hostname) (hsame : SamePool node node') {pk : ℕ}
    (hjobs : node'.jobs = node.jobs.set pk job) (hnew : JobSound hostname node' job) :
    node'.Sound hostname := by
  refine hsound.of_samePool hsame fun other hother => ?_
  rw [hjobs] at hother
  rcases List.mem_or_eq_of_mem_set hother with hold | rfl
  · exact .inl hold
  · exact .inr hnew

theorem query_sound (hsound : node.Sound hostname) {heartbeat : Heartbeat}
    (hheartbeat : heartbeat ∈ node.heartbeats) :
    { node with found := node.found ++ node.reapQuery hostname heartbeat }.Sound hostname := by
  refine ⟨hsound.accounted, fun job hjob => { hsound.jobs job hjob with }, hsound.bound,
    hsound.binding, fun pk hpk => ?_⟩
  rcases List.mem_append.mp hpk with hold | hnew
  · exact hsound.found pk hold
  obtain ⟨job, hjob, hreaped⟩ := Option.any_eq_true .. |>.mp (List.mem_filter.mp hnew).2
  obtain ⟨hrunning, -, -, hstarted, hunlisted⟩ := of_decide_eq_true hreaped
  have hsoundJob := hsound.jobs job (List.mem_of_getElem? hjob)
  refine ⟨job, hjob, fun hmine => ?_⟩
  obtain ⟨uuid, huuid, -⟩ := hsoundJob.begun hmine hrunning
  have hlisted := hsoundJob.bound heartbeat hheartbeat ⟨hmine, hrunning, hstarted⟩ uuid huuid
  exact ⟨uuid, huuid, hlisted.resolve_left (hunlisted uuid huuid)⟩

theorem step_sound (hsound : node.Sound hostname) {event : Event}
    (hallowed : node.Allowed settings event)
    (hstep : node.step settings hostname event = some node') : node'.Sound hostname := by
  have hrow : ofRow event = true → SamePool node node' := fun hevent => samePool_of_row hevent hstep
  cases event with
  | pool event =>
    obtain ⟨hguard, hstep⟩ := Option.ite_none_right_eq_some.mp hstep
    obtain ⟨pool, hpool, rfl⟩ := Option.map_eq_some_iff.mp hstep
    exact hsound.of_pool (Pool.step_accounted hsound.accounted hallowed hpool)
      (Pool.step_grows hpool)
      (hguard.imp_right fun hworker => Pool.tracked_of_worker hworker hpool)
  | launch job =>
    obtain rfl := Option.some.inj hstep
    exact launch_sound hsound job
  | run index pk =>
    obtain ⟨job, hjob, hrun⟩ := Option.bind_eq_some_iff.mp hstep
    obtain ⟨⟨hactive, -, hid, hcurrent⟩, hrun⟩ := Option.ite_none_right_eq_some.mp hrun
    obtain rfl := Option.some.inj hrun
    obtain ⟨uuid, huuid⟩ := Option.isSome_iff_exists.mp hid
    have haccepted := hsound.accounted.accepted_of_current (hcurrent.trans huuid)
    exact hsound.of_setJob (hrow rfl) rfl
      (hsound.set_running (hsound.jobs job (List.mem_of_getElem? hjob)) hactive
        (fun _ => ⟨uuid, huuid, haccepted⟩) (hrow rfl) rfl)
  | sync index =>
    obtain ⟨uuid, hcurrent, rfl⟩ := Option.map_eq_some_iff.mp hstep
    have haccepted := hsound.accounted.accepted_of_current hcurrent
    refine hsound.of_samePool (hrow rfl) fun job hjob => ?_
    rcases List.mem_append.mp hjob with hold | hnew
    · exact .inl hold
    · obtain rfl := List.mem_singleton.mp hnew
      exact .inr (hsound.starting rfl rfl (fun _ => ⟨uuid, rfl, haccepted⟩) (hrow rfl) rfl)
  | runElsewhere pk =>
    obtain ⟨job, hjob, hrun⟩ := Option.bind_eq_some_iff.mp hstep
    obtain ⟨⟨hactive, hother⟩, hrun⟩ := Option.ite_none_right_eq_some.mp hrun
    obtain rfl := Option.some.inj hrun
    exact hsound.of_setJob (hrow rfl) rfl
      (hsound.set_running (hsound.jobs job (List.mem_of_getElem? hjob)) hactive
        (fun hmine => absurd hmine.1 hother) (hrow rfl) rfl)
  | finish pk status =>
    obtain ⟨job, hjob, hfinish⟩ := Option.bind_eq_some_iff.mp hstep
    obtain ⟨hended, hfinish⟩ := Option.ite_none_left_eq_some.mp hfinish
    obtain rfl := Option.some.inj hfinish
    have hold := hsound.jobs job (List.mem_of_getElem? hjob)
    exact hsound.of_setJob (hrow rfl) rfl ((hold.of_ended hended).of_samePool (hrow rfl))
  | stamp =>
    obtain ⟨⟨-, htodo⟩, hstamp⟩ := Option.ite_none_right_eq_some.mp hstep
    obtain rfl := Option.some.inj hstamp
    exact stamp_sound hsound htodo
  | bind =>
    obtain ⟨heartbeat, hbinding, rfl⟩ := Option.map_eq_some_iff.mp hstep
    exact bindWorker_sound settings hsound hbinding
  | query index =>
    obtain ⟨heartbeat, hheartbeat, rfl⟩ := Option.map_eq_some_iff.mp hstep
    exact query_sound hsound (List.mem_of_getElem? hheartbeat)
  | reap pk =>
    obtain ⟨-, hreap⟩ := Option.ite_none_right_eq_some.mp hstep
    obtain ⟨job, hjob, rfl⟩ := Option.map_eq_some_iff.mp hreap
    have hold := hsound.jobs job (List.mem_of_getElem? hjob)
    refine hsound.of_setJob (hrow rfl) rfl (JobSound.of_samePool ?_ (hrow rfl))
    split
    · exact hold.of_ended (by decide)
    · exact hold

theorem sound_of_run (hrun : Run (step settings hostname) (Allowed settings) start node) :
    node.Sound hostname :=
  hrun.invariant (Sound hostname) start_sound
    fun _ _ _ hsound hallowed hstep => step_sound hsound hallowed hstep

/-- The worker of job 0 dies while it runs the job. -/
def workerDies : List Event :=
  [.pool (.up true), .launch ⟨.pending, none, some 7, "node", "node", false⟩, .pool (.write 7),
    .pool (.continue Pool.first), .pool (.continue Pool.first), .pool (.workerRead 0), .run 0 0,
    .pool (.workerExit 0), .pool .cleanup]

def nextHeartbeat : List Event := [.pool (.up true), .stamp, .bind, .bind, .query 0]

def checked (node : Node) (event : Event) : Option Node :=
  if node.Allowed Pool.oneWorker event then node.step Pool.oneWorker "node" event else none

/-- Heartbeats from `since` on do not list the message of the job, which is over. -/
structure Lost (hostname : String) (since pk : ℕ) (uuid : Uuid) (node : Node) : Prop where
  row : ∃ job ∈ node.jobs[pk]?, job.Mine hostname ∧ job.celeryTaskId = some uuid ∧
    ∃ time ∈ job.started, time < since
  ended : node.pool.Over uuid
  unlisted : ∀ heartbeat, heartbeat ∈ node.heartbeats ∨ heartbeat ∈ node.binding →
    since ≤ heartbeat.dispatchTime → uuid ∉ heartbeat.activeTaskIds

theorem Lost.of_samePool {since pk : ℕ} {uuid : Uuid} (hlost : Lost hostname since pk uuid node)
    (hsame : SamePool node node') : Lost hostname since pk uuid node' where
  row := by
    obtain ⟨job, hjob, hmine, hid, time, htime, hsince⟩ := hlost.row
    obtain ⟨job', hjob', hrow⟩ := hsame.rows pk job hjob
    exact ⟨job', hjob', hrow.mine.mpr hmine, hrow.celeryTaskId.trans hid, time,
      hrow.started time htime, hsince⟩
  ended := hsame.pool ▸ hlost.ended
  unlisted := by
    rw [hsame.heartbeats, hsame.binding]
    exact hlost.unlisted

theorem step_lost (hsound : node.Sound hostname) {since pk : ℕ} {uuid : Uuid}
    (hlost : Lost hostname since pk uuid node) {event : Event}
    (hstep : node.step settings hostname event = some node') :
    Lost hostname since pk uuid node' := by
  cases event with
  | launch | run | sync | runElsewhere | finish | reap =>
    exact hlost.of_samePool (samePool_of_row rfl hstep)
  | pool event =>
    obtain ⟨-, hstep⟩ := Option.ite_none_right_eq_some.mp hstep
    obtain ⟨pool, hpool, rfl⟩ := Option.map_eq_some_iff.mp hstep
    exact ⟨hlost.row, (Pool.step_grows hpool).over_of_over hlost.ended, hlost.unlisted⟩
  | stamp =>
    obtain ⟨-, hstamp⟩ := Option.ite_none_right_eq_some.mp hstep
    obtain rfl := Option.some.inj hstamp
    refine ⟨hlost.row, hlost.ended, fun heartbeat hheartbeat hsince => ?_⟩
    rcases hheartbeat with hbound | hbinding
    · exact hlost.unlisted heartbeat (.inl hbound) hsince
    · obtain rfl := Option.some.inj hbinding
      exact List.not_mem_nil
  | bind =>
    obtain ⟨heartbeat, hbinding, rfl⟩ := Option.map_eq_some_iff.mp hstep
    have hbefore := hlost.unlisted heartbeat (.inr hbinding)
    rw [bindWorker]
    split
    · refine ⟨hlost.row, hlost.ended, fun other hother hsince => ?_⟩
      rcases hother with hbound | hnone
      · rcases List.mem_append.mp hbound with hold | hnew
        · exact hlost.unlisted other (.inl hold) hsince
        · obtain rfl := List.mem_singleton.mp hnew
          exact hbefore hsince
      · cases hnone
    · next worker hworker =>
      have hgrows := Pool.calculate_grows node.pool heartbeat.workerTasks.length
      have haccounted :=
        Pool.calculate_accounted settings hsound.accounted heartbeat.workerTasks.length
      have hended := hgrows.over_of_over hlost.ended
      refine ⟨hlost.row, hended, fun other hother hsince => ?_⟩
      rcases hother with hbound | hbinding'
      · exact hlost.unlisted other (.inl hbound) hsince
      · obtain rfl := Option.some.inj hbinding'
        rw [Heartbeat.activeTaskIds, List.flatten_append, List.flatten_singleton, List.mem_append]
        rintro (hlisted | hmanaged)
        · exact hbefore hsince hlisted
        · exact haccounted.unheld_of_over hended
            (List.mem_flatMap.mpr ⟨worker, List.mem_of_getElem? hworker, hmanaged⟩)
  | query index =>
    obtain ⟨heartbeat, -, rfl⟩ := Option.map_eq_some_iff.mp hstep
    exact ⟨hlost.row, hlost.ended, hlost.unlisted⟩

/-- A heartbeat that is written after the message of a job is over finds the job, as long as it is
running. -/
theorem found_of_over (hrun : Run (step settings hostname) (Allowed settings) start node) {pk : ℕ}
    (hjob : node.jobs[pk]? = some job) (hmine : job.Mine hostname)
    (hrunning : job.status = .running) (hover : ∀ uuid ∈ job.celeryTaskId, node.pool.Over uuid)
    (hlater : Run (step settings hostname) (Allowed settings) node node') {heartbeat : Heartbeat}
    (hheartbeat : heartbeat ∈ node'.heartbeats) (htime : node.clock ≤ heartbeat.dispatchTime)
    (hjob' : node'.jobs[pk]? = some job') (hstill : job'.status = .running) :
    pk ∈ node'.reapQuery hostname heartbeat := by
  have hsound := sound_of_run hrun
  have hold := hsound.jobs job (List.mem_of_getElem? hjob)
  obtain ⟨uuid, huuid, -⟩ := hold.begun hmine hrunning
  obtain ⟨time, hstarted⟩ := Option.ne_none_iff_exists'.mp (hold.timed hrunning)
  have hlost : Lost hostname node.clock pk uuid node := by
    refine ⟨⟨job, hjob, hmine, huuid, time, hstarted, hold.started time hstarted⟩, hover uuid huuid,
      fun other hother hsince => ?_⟩
    exact absurd (hsound.time_lt hother) (Nat.not_lt_of_le hsince)
  have hlost' : node'.Sound hostname ∧ Lost hostname node.clock pk uuid node' :=
    hlater.invariant (fun state => state.Sound hostname ∧ Lost hostname node.clock pk uuid state)
      ⟨hsound, hlost⟩ fun _ _ _ hstate hallowed hstep =>
        ⟨step_sound hstate.1 hallowed hstep, step_lost hstate.1 hstate.2 hstep⟩
  obtain ⟨⟨row, hrow, hmine', hid, time', htime', hbefore⟩, -, hunlisted⟩ := hlost'.2
  obtain rfl := Option.some.inj (hjob'.symm.trans hrow)
  refine List.mem_filter.mpr ⟨List.mem_range.mpr (List.getElem?_eq_some_iff.mp hjob').1, ?_⟩
  rw [hjob', Option.any_some]
  refine decide_eq_true ⟨hstill, .inr hmine'.1, hmine'.2, ?_, ?_⟩
  · exact ⟨time', htime', Nat.le_of_lt (Nat.lt_of_lt_of_le hbefore htime)⟩
  · rw [hid]
    rintro other ⟨⟩
    exact hunlisted heartbeat (.inl hheartbeat) htime

theorem found_after_worker_died :
    ∃ (node : Node) (heartbeat : Heartbeat),
      heartbeat ∈ node.heartbeats ∧ 0 ∈ node.reapQuery "node" heartbeat := by
  have hlost : (workerDies.foldlM checked start).any (fun node =>
      (nextHeartbeat.foldlM checked node).any fun node' =>
        decide (node.jobs = [⟨.running, some 1, some 7, "node", "node", false⟩]) &&
          decide (node'.jobs = node.jobs) && decide (7 ∈ node.pool.reaped) &&
            decide (node'.heartbeats = [⟨node.clock, [[]]⟩])) = true := by decide
  obtain ⟨node, hnode, hlost⟩ := Option.any_eq_true .. |>.mp hlost
  obtain ⟨node', hnode', hlost⟩ := Option.any_eq_true .. |>.mp hlost
  simp only [Bool.and_eq_true, decide_eq_true_eq] at hlost
  obtain ⟨⟨⟨hjobs, hjobs'⟩, hreaped⟩, hheartbeats⟩ := hlost
  have hheartbeat : ⟨node.clock, [[]]⟩ ∈ node'.heartbeats := by simp [hheartbeats]
  refine ⟨node', _, hheartbeat, found_of_over (run_of_checked _ hnode) (congrArg (·[0]?) hjobs)
    ⟨rfl, rfl⟩ rfl ?_ (run_of_checked _ hnode') hheartbeat (Nat.le_refl _)
    (congrArg (·[0]?) (hjobs'.trans hjobs)) rfl⟩
  rintro uuid ⟨⟩
  exact .inr hreaped

end Node

end Forail.Dispatch
