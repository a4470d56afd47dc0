import Mathlib.Data.List.Basic
import Mathlib.Logic.Function.Basic
import Forail.Models.UnifiedJobs

/-!
# The dependency manager

Before a pending task is scheduled, the dependency manager obtains the updates
it depends on: the update of its project, and the updates of the
update-on-launch sources of its inventory.  An update that is still good is
reused, otherwise a new one is created.  A call of `generate_dependencies`
takes place at one instant `now`.
-/

namespace Forail.Dependencies

open Forail.UnifiedJobs

abbrev TaskId := ℕ
abbrev ProjectId := ℕ
abbrev InventoryId := ℕ
abbrev InventorySourceId := ℕ

/-- The classes of tasks, with the fields that dependencies are computed from.
`alreadyUpdated` is `inventory_sources_already_updated` of the start arguments. -/
inductive TaskKind where
  | job (project : Option ProjectId) (inventory : Option InventoryId)
      (alreadyUpdated : List InventorySourceId)
  | inventoryUpdate (inventorySource : Option InventorySourceId) (sourceIsScm : Bool)
  | projectUpdate (project : ProjectId) (jobTypeIsCheck : Bool)
  | adHocCommand
  | systemJob
  | workflowJob
  | workflowApproval
  deriving DecidableEq, Repr

structure Task where
  kind : TaskKind
  status : JobStatus
  finished : Option ℕ
  launchTypeIsSync : Bool
  dependenciesProcessed : Bool
  dependentJobs : List TaskId
  deriving DecidableEq, Repr

structure Project where
  scmUpdateOnLaunch : Bool
  scmUpdateCacheTimeout : ℕ
  deriving DecidableEq, Repr

structure InventorySource where
  inventory : Option InventoryId
  updateOnLaunch : Bool
  updateCacheTimeout : ℕ
  sourceProject : Option ProjectId
  sourceIsScm : Bool
  deriving DecidableEq, Repr

/-- The rows of projects and inventory sources, which a pass only reads. -/
structure Tables where
  project : ProjectId → Project
  inventorySources : List InventorySourceId
  inventorySource : InventorySourceId → InventorySource

/-- What an update brings up to date.  Project updates of the job type `run`
are not looked at. -/
inductive UpdateKey where
  | project (project : ProjectId)
  | inventorySource (source : InventorySourceId)
  deriving DecidableEq, Repr

namespace TaskKind

def updateKey : TaskKind → Option UpdateKey
  | projectUpdate project true => some (.project project)
  | inventoryUpdate (some source) _ => some (.inventorySource source)
  | _ => none

end TaskKind

namespace Tables

def cacheTimeout (tables : Tables) : UpdateKey → ℕ
  | .project project => (tables.project project).scmUpdateCacheTimeout
  | .inventorySource source => (tables.inventorySource source).updateCacheTimeout

/-- The class and fields of the task that `create_project_update` and
`create_inventory_update` create. -/
def updateKind (tables : Tables) : UpdateKey → TaskKind
  | .project project => .projectUpdate project true
  | .inventorySource source =>
      .inventoryUpdate (some source) (tables.inventorySource source).sourceIsScm

def defaultDependenciesProcessed (tables : Tables) : TaskKind → Bool
  | .job project inventory _ =>
      if project.all fun id => (tables.project id).scmUpdateOnLaunch then false
      else
        !inventory.all fun id =>
          tables.inventorySources.any fun source =>
            decide ((tables.inventorySource source).inventory = some id) &&
              (tables.inventorySource source).updateOnLaunch
  | .inventoryUpdate _ _ => false
  | _ => true

end Tables

/-- The tasks are numbered in the order of their creation. -/
structure Store where
  tables : Tables
  next : TaskId
  tasks : TaskId → Task
  dependentJobs_lt : ∀ id, ∀ dep ∈ (tasks id).dependentJobs, dep < next

inductive DependencyError where
  /-- `update.finished + timedelta(…)` on an update that has not finished. -/
  | typeError
  /-- A link to a row that does not exist. -/
  | integrityError
  deriving DecidableEq, Repr

/-- The instant of a call, and whether `signal_start` of an update created
during the call returns `True`. -/
structure Instant where
  now : ℕ
  signalStart : UpdateKey → Bool

def shouldUpdateAgain (update : Option Task) (cacheTimeout now : ℕ) :
    Except DependencyError Bool :=
  match update with
  | none => .ok true
  | some update =>
      if update.status ∈ [.failed, .canceled, .error] then .ok true
      else if update.status ∈ [.waiting, .pending, .running] then .ok false
      else
        match update.finished with
        | none => .error .typeError
        | some finished => .ok (decide (finished + cacheTimeout < now))

namespace Store

/-- `order_by("-created").first()` on the updates of a project or source. -/
def latestUpdate (store : Store) (key : UpdateKey) : Option TaskId :=
  ((List.range store.next).filter fun id =>
    decide ((store.tasks id).kind.updateKey = some key)).getLast?

def createTask (store : Store) (kind : TaskKind) (status : JobStatus) : Store where
  tables := store.tables
  next := store.next + 1
  tasks := Function.update store.tasks store.next
    { kind := kind
      status := status
      finished := none
      launchTypeIsSync := false
      dependenciesProcessed := store.tables.defaultDependenciesProcessed kind
      dependentJobs := [] }
  dependentJobs_lt := by
    intro id dep hdep
    by_cases hid : id = store.next
    · simp [hid] at hdep
    · rw [Function.update_of_ne hid] at hdep
      exact Nat.lt_succ_of_lt (store.dependentJobs_lt id dep hdep)

def createUpdate (store : Store) (instant : Instant) (key : UpdateKey) : Store :=
  store.createTask (store.tables.updateKind key)
    (if instant.signalStart key then .pending else .new)

/-- The part that `get_or_create_project_update` and the loop over the inventory
sources have in common. -/
def getOrCreateUpdate (store : Store) (instant : Instant) (key : UpdateKey) :
    Except DependencyError (Store × TaskId) :=
  match shouldUpdateAgain ((store.latestUpdate key).map store.tasks)
      (store.tables.cacheTimeout key) instant.now with
  | .error error => .error error
  | .ok again =>
      match store.latestUpdate key, again with
      | some latest, false => .ok (store, latest)
      | _, _ => .ok (store.createUpdate instant key, store.next)

/-- `dependent_jobs.add(*dependencies)`; the list may name a task twice. -/
def addDependentJobs (store : Store) (id : TaskId) (dependencies : List TaskId) :
    Except DependencyError Store :=
  if hdependencies : ∀ dep ∈ dependencies, dep < store.next then
    .ok
      { tables := store.tables
        next := store.next
        tasks := Function.update store.tasks id
          { store.tasks id with
            dependentJobs := (store.tasks id).dependentJobs ++ dependencies }
        dependentJobs_lt := by
          intro other dep hdep
          by_cases hother : other = id
          · rw [hother, Function.update_self] at hdep
            cases List.mem_append.mp hdep with
            | inl hold => exact store.dependentJobs_lt id dep hold
            | inr hnew => exact hdependencies dep hnew
          · rw [Function.update_of_ne hother] at hdep
            exact store.dependentJobs_lt other dep hdep }
  else .error .integrityError

def markProcessed (store : Store) (ids : List TaskId) : Store where
  tables := store.tables
  next := store.next
  tasks := fun id =>
    if id ∈ ids then { store.tasks id with dependenciesProcessed := true }
    else store.tasks id
  dependentJobs_lt := by
    intro id dep hdep
    split at hdep
    · exact store.dependentJobs_lt id dep hdep
    · exact store.dependentJobs_lt id dep hdep

end Store

/-- The caches of the manager.  A pass is one transaction, so the rows that
they stand for are those of the tables. -/
structure DependencyManager where
  allProjects : List ProjectId
  allInventorySources : InventoryId → List InventorySourceId

namespace DependencyManager

def empty : DependencyManager where
  allProjects := []
  allInventorySources := fun _ => []

def projectIdOf (tables : Tables) : TaskKind → Option ProjectId
  | .job project _ _ => project
  | .inventoryUpdate (some source) _ => (tables.inventorySource source).sourceProject
  | _ => none

def inventoryIdOf : TaskKind → Option InventoryId
  | .job _ inventory _ => inventory
  | _ => none

def cacheProjectsAndSources (manager : DependencyManager) (store : Store)
    (taskList : List TaskId) : DependencyManager :=
  let kinds := taskList.map fun id => (store.tasks id).kind
  let projectIds := kinds.filterMap (projectIdOf store.tables)
  let inventoryIds := kinds.filterMap inventoryIdOf
  { allProjects := manager.allProjects ++
      projectIds.filter fun id => (store.tables.project id).scmUpdateOnLaunch
    allInventorySources := fun inventory =>
      manager.allInventorySources inventory ++
        if inventory ∈ inventoryIds then
          store.tables.inventorySources.filter fun source =>
            decide ((store.tables.inventorySource source).inventory = some inventory) &&
              (store.tables.inventorySource source).updateOnLaunch
        else [] }

def getOrCreateProjectUpdate (manager : DependencyManager) (store : Store)
    (instant : Instant) (project : Option ProjectId) :
    Except DependencyError (Store × List TaskId) :=
  match project with
  | none => .ok (store, [])
  | some project =>
      if project ∈ manager.allProjects then
        (store.getOrCreateUpdate instant (.project project)).map fun result =>
          (result.1, [result.2])
      else .ok (store, [])

def genDepForJob (manager : DependencyManager) (store : Store) (instant : Instant)
    (project : Option ProjectId) (inventory : Option InventoryId)
    (alreadyUpdated : List InventorySourceId) :
    Except DependencyError (Store × List TaskId) := do
  let result ← manager.getOrCreateProjectUpdate store instant project
  let sources :=
    match inventory with
    | none => []
    | some inventory => manager.allInventorySources inventory
  sources.foldlM (fun acc source =>
    if source ∈ alreadyUpdated then .ok acc
    else
      (acc.1.getOrCreateUpdate instant (.inventorySource source)).map fun result =>
        (result.1, acc.2 ++ [result.2])) result

def genDepForInventoryUpdate (manager : DependencyManager) (store : Store)
    (instant : Instant) (inventorySource : Option InventorySourceId)
    (sourceIsScm : Bool) : Except DependencyError (Store × List TaskId) :=
  if sourceIsScm then
    match inventorySource with
    | none => .ok (store, [])
    | some source =>
        manager.getOrCreateProjectUpdate store instant
          (store.tables.inventorySource source).sourceProject
  else .ok (store, [])

/-- The updates of one task of the list; other classes have none. -/
def jobDeps (manager : DependencyManager) (store : Store) (instant : Instant)
    (task : TaskId) : Except DependencyError (Store × List TaskId) :=
  match (store.tasks task).kind with
  | .job project inventory alreadyUpdated =>
      manager.genDepForJob store instant project inventory alreadyUpdated
  | .inventoryUpdate inventorySource sourceIsScm =>
      manager.genDepForInventoryUpdate store instant inventorySource sourceIsScm
  | _ => .ok (store, [])

def linkTask (manager : DependencyManager) (instant : Instant)
    (acc : Store × List TaskId) (task : TaskId) :
    Except DependencyError (Store × List TaskId) := do
  let (store, jobDeps) ← manager.jobDeps acc.1 instant task
  if jobDeps = [] then .ok (store, acc.2)
  else
    let dependencies := acc.2 ++ jobDeps
    let store ← store.addDependentJobs task dependencies
    .ok (store, dependencies)

/-- The manager with its caches, the store, and the dependencies as they were
loaded, that is before the update at the end. -/
def generateDependencies (manager : DependencyManager) (store : Store)
    (instant : Instant) (undepedTasks : List TaskId) :
    Except DependencyError (DependencyManager × Store × List (TaskId × Task)) := do
  let manager := manager.cacheProjectsAndSources store undepedTasks
  let (store, dependencies) ←
    undepedTasks.foldlM (manager.linkTask instant) (store, [])
  .ok (manager, store.markProcessed undepedTasks,
    dependencies.map fun dep => (dep, store.tasks dep))

end DependencyManager

def Store.undepedTasks (store : Store) : List TaskId :=
  (List.range store.next).filter fun id =>
    let task := store.tasks id
    decide (task.status = .pending) && !task.dependenciesProcessed &&
      !task.launchTypeIsSync && decide (task.kind ≠ .workflowApproval)

/-- `_schedule`: the updates obtained for the pending tasks are given their own
dependencies in a second call. -/
def schedule (store : Store) (instant : Instant) : Except DependencyError Store :=
  if store.undepedTasks = [] then .ok store
  else do
    let (manager, store, deps) ←
      DependencyManager.empty.generateDependencies store instant store.undepedTasks
    let undepedDeps := deps.filter fun dep => !dep.2.dependenciesProcessed
    let (_, store, _) ←
      manager.generateDependencies store instant (undepedDeps.map Prod.fst)
    .ok store

/-- The dependency by which `process_job_dep_failures` fails a task. -/
def processJobDepFailures (store : Store) (task : TaskId) : Option TaskId :=
  (store.tasks task).dependentJobs.find? fun dep =>
    decide ((store.tasks dep).status ∈ [.error, .failed])

def Store.blockedJobs (store : Store) (update : TaskId) : List TaskId :=
  (List.range store.next).filter fun id =>
    decide (update ∈ (store.tasks id).dependentJobs)

def TaskKind.isInventoryUpdate : TaskKind → Bool
  | .inventoryUpdate _ _ => true
  | _ => false

/-- `get_jobs_fail_chain` of an update: the tasks that are canceled with it. -/
def getJobsFailChain (store : Store) (update : TaskId) : List TaskId :=
  let blockedJobs := store.blockedJobs update
  match (store.tasks update).kind with
  | .projectUpdate _ _ => blockedJobs ++ blockedJobs.flatMap store.blockedJobs
  | .inventoryUpdate _ _ =>
      blockedJobs ++
        match blockedJobs with
        | [] => []
        | job :: _ =>
            (store.tasks job).dependentJobs.filter fun dep =>
              (store.tasks dep).kind.isInventoryUpdate && decide (dep ≠ update)
  | _ => []


end Forail.Dependencies
