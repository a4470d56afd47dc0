import Mathlib.Data.List.Basic
import Forail.Models.UnifiedJobs

/-!
# Tasks of the task manager

The classes of `UnifiedJob` that the task manager starts, with the fields it
reads.  Updates that run as a part of a job (`launch_type` `sync`) and approvals
are not among the tasks it loads.
-/

namespace Forail.Tasks

open Forail.UnifiedJobs

abbrev TaskId := ℕ
abbrev Hostname := ℕ
abbrev GroupId := ℕ

/-- `Instance.node_type`; hop nodes run no tasks. -/
inductive NodeType where
  | control
  | execution
  | hybrid
  deriving DecidableEq, Repr

inductive CapacityType where
  | control
  | execution
  deriving DecidableEq, Repr

namespace NodeType

def serves : NodeType → CapacityType → Bool
  | hybrid, _ => true
  | control, capacityType => decide (capacityType = .control)
  | execution, capacityType => decide (capacityType = .execution)

end NodeType

structure JobSize where
  forks : ℕ
  launchTypeIsCallback : Bool
  /-- `inventory.total_hosts`, if there is an inventory. -/
  totalHosts : Option ℕ
  jobSliceNumber : ℕ
  jobSliceCount : ℕ
  deriving DecidableEq, Repr

def forksOrDefault (forks : ℕ) : ℕ := if forks = 0 then 5 else forks

namespace JobSize

def countHosts (size : JobSize) : ℕ :=
  if size.launchTypeIsCallback then 2
  else
    match size.totalHosts with
    | none => forksOrDefault size.forks
    | some hosts =>
        if size.jobSliceCount > 1 then
          (hosts + size.jobSliceCount - size.jobSliceNumber) / size.jobSliceCount
        else hosts

def taskImpact (size : JobSize) : ℕ :=
  min size.countHosts (forksOrDefault size.forks) + 1

end JobSize

/-- The classes of tasks.  A sliced workflow job has a job template in
`unifiedJobTemplate` and no `workflowJobTemplate`. -/
inductive TaskKind where
  | job (jobTemplate project inventory : Option ℕ) (allowSimultaneous : Bool)
      (size : JobSize)
  | adHocCommand (inventory : Option ℕ) (forks : ℕ) (totalHosts : Option ℕ)
  | projectUpdate (project : ℕ)
  | inventoryUpdate (inventorySource : ℕ) (inventory : Option ℕ)
  | systemJob
  | workflowJob (workflowJobTemplate unifiedJobTemplate : Option ℕ)
      (allowSimultaneous : Bool)
  deriving DecidableEq, Repr

namespace TaskKind

def taskImpact : TaskKind → ℕ
  | job _ _ _ _ size => size.taskImpact
  | adHocCommand _ forks totalHosts =>
      min (totalHosts.getD 5) (forksOrDefault forks) + 1
  | projectUpdate _ => 1
  | inventoryUpdate _ _ => 1
  | systemJob => 5
  | workflowJob _ _ _ => 0

def capacityType : TaskKind → Option CapacityType
  | job _ _ _ _ _ => some .execution
  | adHocCommand _ _ _ => some .execution
  | inventoryUpdate _ _ => some .execution
  | projectUpdate _ => some .control
  | systemJob => some .control
  | workflowJob _ _ _ => none

theorem taskImpact_pos {kind : TaskKind} (hkind : kind.capacityType ≠ none) :
    0 < kind.taskImpact := by
  cases kind with
  | job => exact Nat.succ_pos _
  | adHocCommand => exact Nat.succ_pos _
  | projectUpdate => exact Nat.one_pos
  | inventoryUpdate => exact Nat.one_pos
  | systemJob => exact Nat.succ_pos _
  | workflowJob => exact absurd rfl hkind

end TaskKind

structure Task where
  kind : TaskKind
  status : JobStatus
  /-- The statuses of `dependent_jobs`, as they were prefetched. -/
  dependentJobs : List JobStatus
  preferredInstanceGroupsCache : List GroupId
  controllerNode : Option Hostname
  executionNode : Option Hostname
  instanceGroup : Option GroupId
  deriving DecidableEq, Repr

namespace Task

def Started (task : Task) : Prop := task.status ∈ [JobStatus.waiting, JobStatus.running]

instance : DecidablePred Started := fun task =>
  inferInstanceAs (Decidable (task.status ∈ [JobStatus.waiting, JobStatus.running]))

/-- A task has an execution node only after `start_task` has placed it, and a
workflow job is never placed.  A task that went back to pending because a
container group was over its quota has no execution node either. -/
structure WellPlaced (task : Task) : Prop where
  pending : task.status = .pending → task.executionNode = none
  workflowJob : task.kind.capacityType = none →
    task.controllerNode = none ∧ task.executionNode = none ∧ task.instanceGroup = none

end Task

end Forail.Tasks
