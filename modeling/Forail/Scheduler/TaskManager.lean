import Forail.Scheduler.DependencyGraph
import Forail.Scheduler.TaskManagerModels

/-!
# The task manager

A pass first counts the tasks that are waiting or running, then starts pending
tasks in the order of their creation until the limit of starts or the time of
the pass is reached.
-/

namespace Forail.Scheduling

open Forail.UnifiedJobs Forail.Tasks

namespace TaskManagerModels

variable (models : TaskManagerModels)

def placeOn (task : Task) (ig : GroupId) (host : Hostname) : Task :=
  { task with
    executionNode := some host
    controllerNode :=
      if (models.instances host).any fun inst => decide (inst.nodeType = .hybrid) then
        some host
      else task.controllerNode
    instanceGroup := some ig }

/-- The body of the loop over the instance groups of a task, with `true` when
the instance comes from `find_largest_idle_instance`. -/
def placeInGroup (task : Task) (ig : GroupId) : Option (Task × Bool) :=
  let group := models.instanceGroups ig
  if models.hasRemainingTaskCapacity group task then
    if group.isContainerGroup then some ({ task with instanceGroup := some ig }, false)
    else
      match models.fitTaskToMostRemainingCapacityInstance group task.kind.taskImpact none
          .execution models.controlTaskImpact with
      | some host => some (models.placeOn task ig host, false)
      | none =>
          match models.findLargestIdleInstance group .execution with
          | some host => some (models.placeOn task ig host, true)
          | none => none
  else none

/-- The nodes and the group that `process_pending_tasks` finds for a task that is
not blocked. -/
def placeTask (task : Task) : Option (Task × Bool) :=
  let controlplane := models.instanceGroups models.controlplaneIg
  match task.kind.capacityType with
  | none => some (task, false)
  | some .control =>
      match models.fitTaskToMostRemainingCapacityInstance controlplane task.kind.taskImpact
          (some (task.kind.taskImpact + models.controlTaskImpact)) .control 0 with
      | none => none
      | some host =>
          if models.hasRemainingControlCapacity controlplane then
            some ({ task with
              controllerNode := some host
              executionNode := some host
              instanceGroup := some models.controlplaneIg }, false)
          else none
  | some .execution =>
      match models.fitTaskToMostRemainingCapacityInstance controlplane task.kind.taskImpact
          (some models.controlTaskImpact) .control 0 with
      | none => none
      | some host =>
          (models.getInstanceGroupsFromTaskCache task).findSome?
            (models.placeInGroup { task with controllerNode := some host })

end TaskManagerModels

structure Start where
  id : TaskId
  /-- The task with the nodes and the group it was given. -/
  task : Task
  fromIdle : Bool
  models : TaskManagerModels
  tasks : TaskId → Task

/-- `starts` is the log of the calls of `start_task`, the latest first. -/
structure TaskManager where
  tasks : TaskId → Task
  dependencyGraph : DependencyGraph
  tmModels : TaskManagerModels
  startTaskLimit : ℕ
  starts : List Start

structure Answers where
  timedOut : TaskId → Bool
  preStart : TaskId → Bool

namespace TaskManager

def init (cluster : Cluster) (tasks : TaskId → Task) (startTaskLimit : ℕ) : TaskManager where
  tasks := tasks
  dependencyGraph := .empty
  tmModels := .ofCluster cluster
  startTaskLimit := startTaskLimit
  starts := []

variable (answers : Answers) (manager : TaskManager)

def startedStatus (id : TaskId) (kind : TaskKind) : JobStatus :=
  if answers.preStart id then
    if kind.capacityType = none then .running else .waiting
  else .failed

def startTask (id : TaskId) (task : Task) (fromIdle : Bool) : TaskManager where
  tasks := Function.update manager.tasks id
    { task with status := startedStatus answers id task.kind }
  dependencyGraph := manager.dependencyGraph.addJob id task.kind
  tmModels := manager.tmModels.consumeCapacity task
  startTaskLimit := manager.startTaskLimit - 1
  starts := ⟨id, task, fromIdle, manager.tmModels, manager.tasks⟩ :: manager.starts

def processRunningTask (id : TaskId) : TaskManager :=
  { manager with
    dependencyGraph := manager.dependencyGraph.addJob id (manager.tasks id).kind
    tmModels := manager.tmModels.consumeCapacity (manager.tasks id) }

def processRunningTasks (runningTasks : List TaskId) : TaskManager :=
  runningTasks.foldl processRunningTask manager

def depFailed (task : Task) : Bool :=
  task.dependentJobs.any fun status => decide (status ∈ [JobStatus.error, JobStatus.failed])

def jobBlockedBy (task : Task) : Bool :=
  (manager.dependencyGraph.taskBlockedBy task.kind).isSome ||
    task.dependentJobs.any fun status => decide status.Active

/-- One round of the loop over the pending tasks.  The explanations that it
leaves on tasks are left out. -/
def processPendingTask (id : TaskId) : TaskManager :=
  let task := manager.tasks id
  if depFailed task then
    { manager with tasks := Function.update manager.tasks id { task with status := .failed } }
  else if manager.jobBlockedBy task then manager
  else
    match manager.tmModels.placeTask task with
    | none => manager
    | some (placed, fromIdle) => manager.startTask answers id placed fromIdle

def processPendingTasks (manager : TaskManager) : List TaskId → TaskManager
  | [] => manager
  | id :: rest =>
      if manager.startTaskLimit = 0 ∨ answers.timedOut id = true then manager
      else processPendingTasks (manager.processPendingTask answers id) rest

def runningTasks (allTasks : List TaskId) : List TaskId :=
  allTasks.filter fun id => decide (manager.tasks id).Started

def pendingTasks (allTasks : List TaskId) : List TaskId :=
  allTasks.filter fun id => decide ((manager.tasks id).status = .pending)

def countTasks (allTasks : List TaskId) : TaskManager :=
  manager.processRunningTasks (manager.runningTasks allTasks)

def processTasks (allTasks : List TaskId) : TaskManager :=
  (manager.countTasks allTasks).processPendingTasks answers
    ((manager.countTasks allTasks).pendingTasks allTasks)

end TaskManager

/-! ## Where tasks are placed -/

inductive Placement (models : TaskManagerModels) (task : Task) : Task → Bool → Prop where
  | workflowJob (hkind : task.kind.capacityType = none) : Placement models task task false
  | control {host : Hostname} (hkind : task.kind.capacityType = some .control)
      (hmember : host ∈ (models.instanceGroups models.controlplaneIg).instances)
      (hfits : models.Fits .control (task.kind.taskImpact + models.controlTaskImpact) 0 host)
      (hremaining : models.hasRemainingControlCapacity
        (models.instanceGroups models.controlplaneIg) = true) :
      Placement models task
        { task with
          controllerNode := some host
          executionNode := some host
          instanceGroup := some models.controlplaneIg } false
  | container {controller : Hostname} {ig : GroupId}
      (hkind : task.kind.capacityType = some .execution)
      (hfits : models.Fits .control models.controlTaskImpact 0 controller)
      (hremaining : models.hasRemainingTaskCapacity (models.instanceGroups ig) task = true)
      (hcontainer : (models.instanceGroups ig).isContainerGroup = true) :
      Placement models task
        { task with controllerNode := some controller, instanceGroup := some ig } false
  | fitted {controller host : Hostname} {ig : GroupId}
      (hkind : task.kind.capacityType = some .execution)
      (hcontroller : models.Fits .control models.controlTaskImpact 0 controller)
      (hremaining : models.hasRemainingTaskCapacity (models.instanceGroups ig) task = true)
      (hregular : (models.instanceGroups ig).isContainerGroup = false)
      (hmember : host ∈ (models.instanceGroups ig).instances)
      (hfits : models.Fits .execution task.kind.taskImpact models.controlTaskImpact host) :
      Placement models task
        (models.placeOn { task with controllerNode := some controller } ig host) false
  | idle {controller host : Hostname} {ig : GroupId}
      (hkind : task.kind.capacityType = some .execution)
      (hcontroller : models.Fits .control models.controlTaskImpact 0 controller)
      (hremaining : models.hasRemainingTaskCapacity (models.instanceGroups ig) task = true)
      (hregular : (models.instanceGroups ig).isContainerGroup = false)
      (hmember : host ∈ (models.instanceGroups ig).instances)
      (hidle : models.Idle .execution host) :
      Placement models task
        (models.placeOn { task with controllerNode := some controller } ig host) true

variable {models : TaskManagerModels} {task placed : Task} {fromIdle : Bool}

theorem placement_of_placeInGroup {controller : Hostname} {ig : GroupId}
    (hkind : task.kind.capacityType = some .execution)
    (hcontroller : models.Fits .control models.controlTaskImpact 0 controller)
    (hplace : models.placeInGroup { task with controllerNode := some controller } ig =
      some (placed, fromIdle)) : Placement models task placed fromIdle := by
  simp only [TaskManagerModels.placeInGroup] at hplace
  split at hplace
  · rename_i hremaining
    split at hplace
    · rename_i hcontainer
      obtain ⟨rfl, rfl⟩ := Prod.mk.inj (Option.some.inj hplace)
      exact .container hkind hcontroller hremaining hcontainer
    · rename_i hcontainer
      have hregular : (models.instanceGroups ig).isContainerGroup = false :=
        Bool.eq_false_iff.mpr hcontainer
      split at hplace
      · rename_i host hfit
        obtain ⟨rfl, rfl⟩ := Prod.mk.inj (Option.some.inj hplace)
        obtain ⟨hmember, hfits⟩ := TaskManagerModels.fits_of_fitTask hfit
        exact .fitted hkind hcontroller hremaining hregular hmember hfits
      · split at hplace
        · rename_i host hlargest
          obtain ⟨rfl, rfl⟩ := Prod.mk.inj (Option.some.inj hplace)
          obtain ⟨hmember, hidle⟩ := TaskManagerModels.idle_of_findLargest hlargest
          exact .idle hkind hcontroller hremaining hregular hmember hidle
        · cases hplace
  · cases hplace

theorem placement_of_placeTask (hplace : models.placeTask task = some (placed, fromIdle)) :
    Placement models task placed fromIdle := by
  simp only [TaskManagerModels.placeTask] at hplace
  split at hplace
  · rename_i hkind
    obtain ⟨rfl, rfl⟩ := Prod.mk.inj (Option.some.inj hplace)
    exact .workflowJob hkind
  · rename_i hkind
    split at hplace
    · cases hplace
    · rename_i host hfit
      obtain ⟨hmember, hfits⟩ := TaskManagerModels.fits_of_fitTask hfit
      split at hplace
      · rename_i hremaining
        obtain ⟨rfl, rfl⟩ := Prod.mk.inj (Option.some.inj hplace)
        exact .control hkind hmember hfits hremaining
      · cases hplace
  · rename_i hkind
    split at hplace
    · cases hplace
    · rename_i controller hfit
      obtain ⟨-, hcontroller⟩ := TaskManagerModels.fits_of_fitTask hfit
      obtain ⟨ig, -, hgroup⟩ := List.exists_of_findSome?_eq_some hplace
      exact placement_of_placeInGroup hkind hcontroller hgroup

theorem Placement.kind (hplacement : Placement models task placed fromIdle) :
    placed.kind = task.kind := by
  cases hplacement <;> rfl

namespace TaskManager

variable {answers : Answers} {manager : TaskManager} {id : TaskId}

theorem processPendingTask_cases :
    manager.processPendingTask answers id = manager ∨
      manager.processPendingTask answers id =
        { manager with
          tasks := Function.update manager.tasks id
            { manager.tasks id with status := .failed } } ∨
      ∃ placed fromIdle, manager.jobBlockedBy (manager.tasks id) = false ∧
        Placement manager.tmModels (manager.tasks id) placed fromIdle ∧
        manager.processPendingTask answers id =
          manager.startTask answers id placed fromIdle := by
  unfold processPendingTask
  simp only
  split
  · exact Or.inr (Or.inl rfl)
  · split
    · exact Or.inl rfl
    · rename_i hblocked
      cases hplace : manager.tmModels.placeTask (manager.tasks id) with
      | none => exact Or.inl rfl
      | some choice =>
        exact Or.inr (Or.inr ⟨choice.1, choice.2, Bool.eq_false_iff.mpr hblocked,
          placement_of_placeTask hplace, rfl⟩)

theorem tasks_processPendingTask_of_ne {other : TaskId} (hne : other ≠ id) :
    (manager.processPendingTask answers id).tasks other = manager.tasks other := by
  obtain hsame | hfailed | ⟨placed, fromIdle, -, -, hstart⟩ :=
    @processPendingTask_cases answers manager id
  · rw [hsame]
  · rw [hfailed]
    exact Function.update_of_ne hne ..
  · rw [hstart]
    exact Function.update_of_ne hne ..

theorem startedStatus_ne_pending {kind : TaskKind} :
    startedStatus answers id kind ≠ .pending := by
  unfold startedStatus
  split
  · split <;> simp
  · simp

theorem tasks_processPendingTask_of_pending {other : TaskId}
    (hpending : ((manager.processPendingTask answers id).tasks other).status = .pending) :
    (manager.processPendingTask answers id).tasks other = manager.tasks other := by
  by_cases hother : other = id
  · subst hother
    obtain hsame | hfailed | ⟨placed, fromIdle, -, -, hstart⟩ :=
      @processPendingTask_cases answers manager other
    · rw [hsame]
    · rw [hfailed] at hpending
      simp at hpending
    · rw [hstart] at hpending
      simp only [startTask, Function.update_self] at hpending
      exact absurd hpending startedStatus_ne_pending
  · exact tasks_processPendingTask_of_ne hother

def PendingWellPlaced (manager : TaskManager) : Prop :=
  ∀ id, (manager.tasks id).status = .pending → (manager.tasks id).WellPlaced

theorem pendingWellPlaced_processPendingTask (hplaced : manager.PendingWellPlaced) :
    (manager.processPendingTask answers id).PendingWellPlaced := by
  intro other hpending
  have hsame := tasks_processPendingTask_of_pending hpending
  rw [hsame] at hpending ⊢
  exact hplaced other hpending

theorem processPendingTasks_invariant (invariant : TaskManager → Prop)
    {pending : List TaskId}
    (hround : ∀ manager, ∀ id ∈ pending, invariant manager →
      (manager.tasks id).status = .pending →
      invariant (manager.processPendingTask answers id))
    (hnodup : pending.Nodup)
    (hpending : ∀ id ∈ pending, (manager.tasks id).status = .pending)
    (hmanager : invariant manager) :
    invariant (manager.processPendingTasks answers pending) := by
  induction pending generalizing manager with
  | nil => exact hmanager
  | cons id rest ih =>
    rw [processPendingTasks]
    split
    · exact hmanager
    · apply ih
      · exact fun manager other hother => hround manager other (List.mem_cons_of_mem _ hother)
      · exact (List.nodup_cons.mp hnodup).2
      · intro other hother
        have hne : other ≠ id := fun hsame =>
          (List.nodup_cons.mp hnodup).1 (hsame ▸ hother)
        rw [tasks_processPendingTask_of_ne hne]
        exact hpending other (List.mem_cons_of_mem _ hother)
      · exact hround manager id List.mem_cons_self hmanager (hpending id List.mem_cons_self)

theorem countTasks_invariant (invariant : TaskManager → Prop) {allTasks : List TaskId}
    (hcount : ∀ before id, before.tasks = manager.tasks → invariant before →
      id ∈ manager.runningTasks allTasks → invariant (before.processRunningTask id))
    (hmanager : invariant manager) :
    invariant (manager.countTasks allTasks) ∧
      (manager.countTasks allTasks).tasks = manager.tasks := by
  have hfold : ∀ (ids : List TaskId) (before : TaskManager),
      (∀ id ∈ ids, id ∈ manager.runningTasks allTasks) →
      before.tasks = manager.tasks → invariant before →
      invariant (before.processRunningTasks ids) ∧
        (before.processRunningTasks ids).tasks = manager.tasks := by
    intro ids
    induction ids with
    | nil => exact fun before _ htasks hbefore => ⟨hbefore, htasks⟩
    | cons id ids ih =>
      intro before hids htasks hbefore
      exact ih (before.processRunningTask id)
        (fun other hother => hids other (List.mem_cons_of_mem _ hother)) htasks
        (hcount before id htasks hbefore (hids id List.mem_cons_self))
  exact hfold _ manager (fun _ hmem => hmem) rfl hmanager

theorem tasks_countTasks {allTasks : List TaskId} :
    (manager.countTasks allTasks).tasks = manager.tasks :=
  (@countTasks_invariant manager (fun _ => True) allTasks (fun _ _ _ _ _ => trivial)
    trivial).2

theorem starts_countTasks {allTasks : List TaskId} :
    (manager.countTasks allTasks).starts = manager.starts :=
  (@countTasks_invariant manager (fun before => before.starts = manager.starts) allTasks
    (fun _ _ _ hsame _ => hsame) rfl).1

theorem pass_invariant (invariant : TaskManager → Prop) {allTasks : List TaskId}
    (hround : ∀ manager, ∀ id ∈ allTasks, invariant manager →
      (manager.tasks id).status = .pending →
      invariant (manager.processPendingTask answers id))
    (hnodup : allTasks.Nodup) (hmanager : invariant manager) (rounds : ℕ) :
    invariant (manager.processPendingTasks answers
      ((manager.pendingTasks allTasks).take rounds)) := by
  apply processPendingTasks_invariant invariant _ _ _ hmanager
  · intro manager id hid
    exact hround manager id (List.mem_filter.mp (List.mem_of_mem_take hid)).1
  · exact (hnodup.filter _).sublist (List.take_sublist ..)
  · intro id hid
    simpa using (List.mem_filter.mp (List.mem_of_mem_take hid)).2

theorem processTasks_invariant (invariant : TaskManager → Prop) {allTasks : List TaskId}
    (hround : ∀ manager, ∀ id ∈ allTasks, invariant manager →
      (manager.tasks id).status = .pending →
      invariant (manager.processPendingTask answers id))
    (hnodup : allTasks.Nodup)
    (hcounted : invariant (manager.countTasks allTasks)) :
    invariant (manager.processTasks answers allTasks) := by
  have htake := pass_invariant invariant hround hnodup hcounted allTasks.length
  rw [pendingTasks, List.take_of_length_le (List.length_filter_le ..)] at htake
  exact htake

end TaskManager

/-! ## A small cluster -/

/-- A control node `0`, an execution node `1` and a hybrid node `2`.  The group
`0` is the control plane, `1` holds the execution node, `2` is a container group
and `3` holds the hybrid node. -/
def smallCluster (maxForks maxConcurrentJobs : ℕ) : Cluster where
  controlTaskImpact := 1
  instances
    | 0 => some { nodeType := .control, capacity := 10 }
    | 1 => some { nodeType := .execution, capacity := 10 }
    | 2 => some { nodeType := .hybrid, capacity := 20 }
    | _ => none
  instanceGroups
    | 0 => ⟨false, [0, 2], by decide, 0, 0⟩
    | 1 => ⟨false, [1], by decide, maxConcurrentJobs, maxForks⟩
    | 2 => ⟨true, [], by decide, maxConcurrentJobs, maxForks⟩
    | 3 => ⟨false, [2], by decide, maxConcurrentJobs, maxForks⟩
    | _ => ⟨false, [], by decide, 0, 0⟩
  pkIgMap := fun ig => decide (ig < 4)
  controlplaneIg := 0
  controlplane_regular := rfl
  globalInstanceGroups := [1]

def jobOfSize (jobTemplate forks : ℕ) : TaskKind :=
  .job (some jobTemplate) none none false
    { forks := forks
      launchTypeIsCallback := false
      totalHosts := some forks
      jobSliceNumber := 0
      jobSliceCount := 1 }

def pendingTask (kind : TaskKind) (groups : List GroupId) : Task where
  kind := kind
  status := .pending
  dependentJobs := []
  preferredInstanceGroupsCache := groups
  controllerNode := none
  executionNode := none
  instanceGroup := none

def allStart : Answers where
  timedOut := fun _ => false
  preStart := fun _ => true

end Forail.Scheduling
