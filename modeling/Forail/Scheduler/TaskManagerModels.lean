import Mathlib.Algebra.BigOperators.Group.List.Basic
import Mathlib.Algebra.GroupWithZero.Nat
import Mathlib.Logic.Function.Basic
import Mathlib.Order.Nat
import Forail.Models.Tasks

/-!
# Instances and instance groups of the task manager

The task manager counts what the tasks consume on instances, which groups may
share, and on container groups, which have no instances.
-/

namespace Forail.Scheduling

open Forail.UnifiedJobs Forail.Tasks

structure Instance where
  nodeType : NodeType
  capacity : ℕ
  deriving DecidableEq, Repr

/-- The row of a group.  It may name instances that are not ready. -/
structure InstanceGroup where
  isContainerGroup : Bool
  instances : List Hostname
  instances_nodup : instances.Nodup
  maxConcurrentJobs : ℕ
  maxForks : ℕ

/-- What the task manager loads.  Groups are named by their keys.  The control
plane queue is registered at installation, and the API refuses to make it a
container group. -/
structure Cluster where
  controlTaskImpact : ℕ
  instances : Hostname → Option Instance
  instanceGroups : GroupId → InstanceGroup
  /-- The keys of the groups that exist. -/
  pkIgMap : GroupId → Bool
  controlplaneIg : GroupId
  controlplane_regular : (instanceGroups controlplaneIg).isContainerGroup = false
  globalInstanceGroups : List GroupId

structure TaskManagerInstance where
  nodeType : NodeType
  capacity : ℕ
  consumedCapacity : ℕ
  jobsRunning : ℕ
  deriving DecidableEq, Repr

namespace TaskManagerInstance

def ofInstance (obj : Instance) : TaskManagerInstance where
  nodeType := obj.nodeType
  capacity := obj.capacity
  consumedCapacity := 0
  jobsRunning := 0

def consumeCapacity (inst : TaskManagerInstance) (impact : ℕ) (jobImpact : Bool) :
    TaskManagerInstance :=
  { inst with
    consumedCapacity := inst.consumedCapacity + impact
    jobsRunning := if jobImpact then inst.jobsRunning + 1 else inst.jobsRunning }

def remainingCapacity (inst : TaskManagerInstance) : ℕ :=
  inst.capacity - inst.consumedCapacity

end TaskManagerInstance

structure TaskManagerInstanceGroup extends InstanceGroup where
  containerGroupJobs : ℕ
  containerGroupConsumedForks : ℕ

namespace TaskManagerInstanceGroup

def ofInstanceGroup (obj : InstanceGroup) : TaskManagerInstanceGroup where
  toInstanceGroup := obj
  containerGroupJobs := 0
  containerGroupConsumedForks := 0

def consumeCapacity (group : TaskManagerInstanceGroup) (taskImpact : ℕ) :
    TaskManagerInstanceGroup :=
  { group with
    containerGroupJobs := group.containerGroupJobs + 1
    containerGroupConsumedForks := group.containerGroupConsumedForks + taskImpact }

end TaskManagerInstanceGroup

structure TaskManagerModels where
  controlTaskImpact : ℕ
  instances : Hostname → Option TaskManagerInstance
  instanceGroups : GroupId → TaskManagerInstanceGroup
  pkIgMap : GroupId → Bool
  controlplaneIg : GroupId
  controlplane_regular : (instanceGroups controlplaneIg).isContainerGroup = false
  globalInstanceGroups : List GroupId

namespace TaskManagerModels

def ofCluster (cluster : Cluster) : TaskManagerModels where
  controlTaskImpact := cluster.controlTaskImpact
  instances := fun host => (cluster.instances host).map .ofInstance
  instanceGroups := fun ig => .ofInstanceGroup (cluster.instanceGroups ig)
  pkIgMap := cluster.pkIgMap
  controlplaneIg := cluster.controlplaneIg
  controlplane_regular := cluster.controlplane_regular
  globalInstanceGroups := cluster.globalInstanceGroups

variable (models : TaskManagerModels)

def members (group : TaskManagerInstanceGroup) : List TaskManagerInstance :=
  group.instances.filterMap models.instances

def getJobsRunning (group : TaskManagerInstanceGroup) : ℕ :=
  if group.isContainerGroup then group.containerGroupJobs
  else ((models.members group).map TaskManagerInstance.jobsRunning).sum

def getConsumedCapacity (group : TaskManagerInstanceGroup) : ℕ :=
  if group.isContainerGroup then group.containerGroupConsumedForks
  else ((models.members group).map TaskManagerInstance.consumedCapacity).sum

def hasRemainingCapacity (group : TaskManagerInstanceGroup) (taskImpact jobImpact : ℕ) :
    Bool :=
  (decide (group.maxConcurrentJobs = 0) ||
      decide (models.getJobsRunning group + jobImpact ≤ group.maxConcurrentJobs)) &&
    (decide (group.maxForks = 0) ||
      decide (models.getConsumedCapacity group + taskImpact ≤ group.maxForks))

def hasRemainingTaskCapacity (group : TaskManagerInstanceGroup) (task : Task) : Bool :=
  models.hasRemainingCapacity group task.kind.taskImpact 1

def hasRemainingControlCapacity (group : TaskManagerInstanceGroup) : Bool :=
  models.hasRemainingCapacity group models.controlTaskImpact 0

def chargeInstance (instances : Hostname → Option TaskManagerInstance)
    (node : Option Hostname) (nodeTypes : List NodeType) (impact : ℕ) (jobImpact : Bool) :
    Hostname → Option TaskManagerInstance :=
  match node with
  | none => instances
  | some host =>
      match instances host with
      | none => instances
      | some inst =>
          if inst.nodeType ∈ nodeTypes then
            Function.update instances host
              (some (inst.consumeCapacity impact jobImpact))
          else instances

def consumeInstances (task : Task) : Hostname → Option TaskManagerInstance :=
  chargeInstance
    (chargeInstance models.instances task.executionNode [.hybrid, .execution]
      task.kind.taskImpact true)
    task.controllerNode [.hybrid, .control] models.controlTaskImpact false

def consumeGroups (task : Task) : GroupId → TaskManagerInstanceGroup :=
  match task.instanceGroup with
  | none => models.instanceGroups
  | some ig =>
      if models.pkIgMap ig && (models.instanceGroups ig).isContainerGroup then
        Function.update models.instanceGroups ig
          ((models.instanceGroups ig).consumeCapacity task.kind.taskImpact)
      else models.instanceGroups

theorem consumeGroups_apply (task : Task) (ig : GroupId) :
    models.consumeGroups task ig =
      if task.instanceGroup = some ig ∧ models.pkIgMap ig = true ∧
          (models.instanceGroups ig).isContainerGroup = true then
        (models.instanceGroups ig).consumeCapacity task.kind.taskImpact
      else models.instanceGroups ig := by
  cases hgroup : task.instanceGroup with
  | none => simp [consumeGroups, hgroup]
  | some own =>
    simp only [consumeGroups, hgroup, Option.some.injEq]
    by_cases hown : own = ig
    · subst hown
      simp only [true_and, Bool.and_eq_true]
      split
      · exact Function.update_self ..
      · rfl
    · simp only [hown, false_and, if_false]
      split
      · exact Function.update_of_ne (Ne.symm hown) ..
      · rfl

def consumeCapacity (task : Task) : TaskManagerModels :=
  { models with
    instances := models.consumeInstances task
    instanceGroups := models.consumeGroups task
    controlplane_regular := by
      rw [models.consumeGroups_apply task]
      split
      · exact models.controlplane_regular
      · exact models.controlplane_regular }

@[simp]
theorem instances_consumeCapacity (task : Task) :
    (models.consumeCapacity task).instances = models.consumeInstances task := rfl

@[simp]
theorem instanceGroups_consumeCapacity (task : Task) :
    (models.consumeCapacity task).instanceGroups = models.consumeGroups task := rfl

/-- One round of `fit_task_to_most_remaining_capacity_instance`.  The best
instance so far comes with what would remain on it. -/
def fitStep (capacityType : CapacityType) (impact hybridImpact : ℕ)
    (best : Option (Hostname × ℕ)) (host : Hostname) : Option (Hostname × ℕ) :=
  match models.instances host with
  | none => best
  | some inst =>
      if inst.nodeType.serves capacityType then
        let cost := impact + if inst.nodeType = .hybrid then hybridImpact else 0
        if cost ≤ inst.remainingCapacity then
          let wouldBeRemaining := inst.remainingCapacity - cost
          match best with
          | none => some (host, wouldBeRemaining)
          | some (other, mostRemaining) =>
              if mostRemaining < wouldBeRemaining then some (host, wouldBeRemaining)
              else some (other, mostRemaining)
        else best
      else best

def impactOrDefault (taskImpact : ℕ) : Option ℕ → ℕ
  | none => taskImpact
  | some impact => if impact = 0 then taskImpact else impact

def fitTaskToMostRemainingCapacityInstance (group : TaskManagerInstanceGroup)
    (taskImpact : ℕ) (impact : Option ℕ) (capacityType : CapacityType)
    (hybridImpact : ℕ) : Option Hostname :=
  (group.instances.foldl
    (models.fitStep capacityType (impactOrDefault taskImpact impact) hybridImpact)
    none).map Prod.fst

def largestIdleStep (capacityType : CapacityType) (largest : Option (Hostname × ℕ))
    (host : Hostname) : Option (Hostname × ℕ) :=
  match models.instances host with
  | none => largest
  | some inst =>
      if inst.nodeType.serves capacityType && decide (0 < inst.capacity) &&
          (decide (inst.jobsRunning = 0) ||
            decide (inst.remainingCapacity = inst.capacity)) then
        match largest with
        | none => some (host, inst.capacity)
        | some (other, capacity) =>
            if capacity < inst.capacity then some (host, inst.capacity)
            else some (other, capacity)
      else largest

def findLargestIdleInstance (group : TaskManagerInstanceGroup)
    (capacityType : CapacityType) : Option Hostname :=
  (group.instances.foldl (models.largestIdleStep capacityType) none).map Prod.fst

def getInstanceGroupsFromTaskCache (task : Task) : List GroupId :=
  let igs := task.preferredInstanceGroupsCache.filter models.pkIgMap
  if igs = [] then models.globalInstanceGroups else igs

/-! ## What is consumed -/

def executionCharge (task : Task) (host : Hostname) (nodeType : NodeType) : ℕ :=
  if task.executionNode = some host ∧ nodeType ≠ .control then task.kind.taskImpact else 0

def controlCharge (task : Task) (host : Hostname) (nodeType : NodeType) : ℕ :=
  if task.controllerNode = some host ∧ nodeType ≠ .execution then models.controlTaskImpact
  else 0

def jobCharge (task : Task) (host : Hostname) (nodeType : NodeType) : ℕ :=
  if task.executionNode = some host ∧ nodeType ≠ .control then 1 else 0

def charged (task : Task) (host : Hostname) (inst : TaskManagerInstance) :
    TaskManagerInstance :=
  { inst with
    consumedCapacity := inst.consumedCapacity +
      (executionCharge task host inst.nodeType +
        models.controlCharge task host inst.nodeType)
    jobsRunning := inst.jobsRunning + jobCharge task host inst.nodeType }

theorem chargeInstance_apply (instances : Hostname → Option TaskManagerInstance)
    (node : Option Hostname) (nodeTypes : List NodeType) (impact : ℕ) (jobImpact : Bool)
    (host : Hostname) :
    chargeInstance instances node nodeTypes impact jobImpact host =
      (instances host).map fun inst =>
        if node = some host ∧ inst.nodeType ∈ nodeTypes then
          inst.consumeCapacity impact jobImpact
        else inst := by
  cases node with
  | none => simp [chargeInstance]
  | some own =>
    by_cases hown : own = host
    · subst hown
      cases hinst : instances own with
      | none => simp [chargeInstance, hinst]
      | some inst =>
        simp only [chargeInstance, hinst, true_and, Option.map_some]
        split
        · exact Function.update_self ..
        · exact hinst
    · simp only [Option.some.injEq, hown, false_and, if_false, Option.map_id']
      cases hinst : instances own with
      | none => simp [chargeInstance, hinst]
      | some inst =>
        simp only [chargeInstance, hinst]
        split
        · exact Function.update_of_ne (Ne.symm hown) ..
        · rfl

theorem consumeInstances_apply (task : Task) (host : Hostname) :
    models.consumeInstances task host =
      (models.instances host).map (models.charged task host) := by
  rw [consumeInstances, chargeInstance_apply, chargeInstance_apply, Option.map_map]
  congr 1
  funext inst
  obtain ⟨nodeType, capacity, consumedCapacity, jobsRunning⟩ := inst
  by_cases hexecution : task.executionNode = some host
  · by_cases hcontrol : task.controllerNode = some host
    · cases nodeType <;>
        simp [TaskManagerInstance.consumeCapacity, charged, executionCharge, controlCharge,
          jobCharge, hexecution, hcontrol, Nat.add_assoc]
    · cases nodeType <;>
        simp [TaskManagerInstance.consumeCapacity, charged, executionCharge, controlCharge,
          jobCharge, hexecution, hcontrol]
  · by_cases hcontrol : task.controllerNode = some host
    · cases nodeType <;>
        simp [TaskManagerInstance.consumeCapacity, charged, executionCharge, controlCharge,
          jobCharge, hexecution, hcontrol]
    · simp [charged, executionCharge, controlCharge, jobCharge, hexecution, hcontrol]

/-! ## What is chosen -/

theorem foldl_choice {step : Option (Hostname × ℕ) → Hostname → Option (Hostname × ℕ)}
    {reason : Hostname → Prop}
    (hstep : ∀ best host, step best host = best ∨
      (reason host ∧ ∃ value, step best host = some (host, value)))
    {hosts : List Hostname} {best : Option (Hostname × ℕ)} {choice : Hostname × ℕ}
    (hchoice : hosts.foldl step best = some choice) :
    best = some choice ∨ (choice.1 ∈ hosts ∧ reason choice.1) := by
  induction hosts generalizing best with
  | nil => exact Or.inl hchoice
  | cons host hosts ih =>
    rw [List.foldl_cons] at hchoice
    cases ih hchoice with
    | inr hlater => exact Or.inr ⟨List.mem_cons_of_mem _ hlater.1, hlater.2⟩
    | inl hnow =>
      cases hstep best host with
      | inl hkept => exact Or.inl (hkept.symm.trans hnow)
      | inr htaken =>
        obtain ⟨hreason, value, hvalue⟩ := htaken
        have hsame : choice = (host, value) := Option.some.inj (hnow.symm.trans hvalue)
        rw [hsame]
        exact Or.inr ⟨List.mem_cons_self, hreason⟩

def Fits (capacityType : CapacityType) (impact hybridImpact : ℕ) (host : Hostname) : Prop :=
  ∃ inst, models.instances host = some inst ∧ inst.nodeType.serves capacityType = true ∧
    (impact + if inst.nodeType = .hybrid then hybridImpact else 0) ≤ inst.remainingCapacity

/-- The instance has no running job, or nothing is consumed on it. -/
def Idle (capacityType : CapacityType) (host : Hostname) : Prop :=
  ∃ inst, models.instances host = some inst ∧ inst.nodeType.serves capacityType = true ∧
    0 < inst.capacity ∧
    (inst.jobsRunning = 0 ∨ inst.remainingCapacity = inst.capacity)

variable {models} {group : TaskManagerInstanceGroup} {capacityType : CapacityType}
  {impact hybridImpact : ℕ} {host : Hostname}

theorem Fits.mono {more : ℕ} (hle : impact ≤ more)
    (hfits : models.Fits capacityType more hybridImpact host) :
    models.Fits capacityType impact hybridImpact host := by
  obtain ⟨inst, hinst, hserves, hroom⟩ := hfits
  exact ⟨inst, hinst, hserves, (Nat.add_le_add_right hle _).trans hroom⟩

theorem fitStep_choice (best : Option (Hostname × ℕ)) (host : Hostname) :
    models.fitStep capacityType impact hybridImpact best host = best ∨
      (models.Fits capacityType impact hybridImpact host ∧
        ∃ value, models.fitStep capacityType impact hybridImpact best host =
          some (host, value)) := by
  cases hinst : models.instances host with
  | none => simp [fitStep, hinst]
  | some inst =>
    by_cases hserves : inst.nodeType.serves capacityType = true
    · simp only [fitStep, hinst, hserves, if_true]
      generalize hcost : (impact + if inst.nodeType = .hybrid then hybridImpact else 0) = cost
      by_cases hroom : cost ≤ inst.remainingCapacity
      · have hfits : models.Fits capacityType impact hybridImpact host :=
          ⟨inst, hinst, hserves, hcost ▸ hroom⟩
        simp only [hroom, if_true, hfits, true_and]
        cases best with
        | none => exact Or.inr ⟨_, rfl⟩
        | some other =>
          simp only
          split
          · exact Or.inr ⟨_, rfl⟩
          · exact Or.inl rfl
      · simp [hroom]
    · simp [fitStep, hinst, hserves]

theorem fits_of_fitTask {taskImpact : ℕ} {impact : Option ℕ}
    (hfit : models.fitTaskToMostRemainingCapacityInstance group taskImpact impact
      capacityType hybridImpact = some host) :
    host ∈ group.instances ∧
      models.Fits capacityType (impact.getD taskImpact) hybridImpact host := by
  obtain ⟨choice, hchoice, rfl⟩ := Option.map_eq_some_iff.mp hfit
  have himpact : impact.getD taskImpact ≤ impactOrDefault taskImpact impact := by
    cases impact with
    | none => exact le_rfl
    | some impact =>
      simp only [impactOrDefault, Option.getD_some]
      split <;> omega
  cases foldl_choice fitStep_choice hchoice with
  | inl hnone => cases hnone
  | inr hchosen => exact ⟨hchosen.1, hchosen.2.mono himpact⟩

theorem largestIdleStep_choice (largest : Option (Hostname × ℕ)) (host : Hostname) :
    models.largestIdleStep capacityType largest host = largest ∨
      (models.Idle capacityType host ∧
        ∃ value, models.largestIdleStep capacityType largest host = some (host, value)) := by
  cases hinst : models.instances host with
  | none => simp [largestIdleStep, hinst]
  | some inst =>
    simp only [largestIdleStep, hinst]
    split
    · rename_i htest
      simp only [Bool.and_eq_true, Bool.or_eq_true, decide_eq_true_eq] at htest
      have hidle : models.Idle capacityType host :=
        ⟨inst, hinst, htest.1.1, htest.1.2, htest.2⟩
      cases largest with
      | none => exact Or.inr ⟨hidle, _, rfl⟩
      | some other =>
        simp only
        split
        · exact Or.inr ⟨hidle, _, rfl⟩
        · exact Or.inl rfl
    · exact Or.inl rfl

theorem idle_of_findLargest
    (hidle : models.findLargestIdleInstance group capacityType = some host) :
    host ∈ group.instances ∧ models.Idle capacityType host := by
  obtain ⟨choice, hchoice, rfl⟩ := Option.map_eq_some_iff.mp hidle
  cases foldl_choice largestIdleStep_choice hchoice with
  | inl hnone => cases hnone
  | inr hchosen => exact hchosen

end TaskManagerModels

end Forail.Scheduling
