import Mathlib.Algebra.BigOperators.Group.List.Basic
import Mathlib.Data.List.Nodup
import Forail.Scheduler.InstanceCapacity

/-!
# Limits of instance groups

`has_remaining_capacity` tests the impact of a job, or the control impact of a
control task.  What a start consumes inside the group can be more: the control
impact of a job whose controller is a member too, and the impact and the job of
a control task on a hybrid node.  The main result says that the limits hold
after a start exactly when there is room for that as well.
-/

namespace Forail.Scheduling

open Forail.UnifiedJobs Forail.Tasks

variable {models : TaskManagerModels} {task placed : Task} {fromIdle : Bool}
  {group : TaskManagerInstanceGroup} {host : Hostname} {ig : GroupId}

namespace TaskManagerModels

def LimitsHold (models : TaskManagerModels) (ig : GroupId) : Prop :=
  models.ForksWithin ig ∧ models.JobsWithin ig

def Undercounted (models : TaskManagerModels) (placed : Task) (ig : GroupId) : Prop :=
  match placed.kind.capacityType with
  | none => False
  | some .execution =>
      ∃ host ∈ (models.instanceGroups ig).instances, placed.controllerNode = some host
  | some .control =>
      ∃ inst, placed.executionNode.bind models.instances = some inst ∧
        inst.nodeType = .hybrid

def HasRoom (models : TaskManagerModels) (placed : Task) (ig : GroupId) : Prop :=
  let group := models.instanceGroups ig
  (group.maxForks ≠ 0 →
      models.getConsumedCapacity group +
        (placed.kind.taskImpact + models.controlTaskImpact) ≤ group.maxForks) ∧
    (group.maxConcurrentJobs ≠ 0 →
      models.getJobsRunning group + 1 ≤ group.maxConcurrentJobs)

/-! ## What a group consumes -/

theorem sum_filterMap {α β : Type*} (f : α → Option β) (g : β → ℕ) (xs : List α) :
    ((xs.filterMap f).map g).sum = (xs.map fun x => ((f x).map g).getD 0).sum := by
  induction xs with
  | nil => rfl
  | cons x xs ih =>
    cases hx : f x with
    | none => simp [hx, ih]
    | some y => simp [hx, ih]

theorem sum_single {xs : List Hostname} (hnodup : xs.Nodup) (f : Hostname → ℕ)
    (hother : ∀ other, other ≠ host → f other = 0) :
    (xs.map f).sum = if host ∈ xs then f host else 0 := by
  rw [List.sum_map_eq_nsmul_single host f fun other hne _ => hother other hne, hnodup.count]
  split
  · exact one_nsmul _
  · exact zero_nsmul _

def onHost (models : TaskManagerModels) (number : Hostname → TaskManagerInstance → ℕ)
    (host : Hostname) : ℕ :=
  ((models.instances host).map (number host)).getD 0

theorem onHost_of_some {number : Hostname → TaskManagerInstance → ℕ}
    {inst : TaskManagerInstance} (hinst : models.instances host = some inst) :
    models.onHost number host = number host inst := by
  rw [onHost, hinst]
  rfl

theorem onHost_eq_zero {number : Hostname → TaskManagerInstance → ℕ}
    (hzero : ∀ inst, number host inst = 0) : models.onHost number host = 0 := by
  rw [onHost]
  cases models.instances host with
  | none => rfl
  | some inst => exact hzero inst

/-- A number that a task increases on each instance grows by the sum over the
hosts of the group. -/
theorem sum_members_consumeCapacity {number : TaskManagerInstance → ℕ}
    {increase : Hostname → TaskManagerInstance → ℕ}
    (hincrease : ∀ host inst, number (models.charged task host inst) =
      number inst + increase host inst) :
    (((models.consumeCapacity task).members group).map number).sum =
      ((models.members group).map number).sum +
        (group.instances.map (models.onHost increase)).sum := by
  rw [members, members, sum_filterMap, sum_filterMap, ← List.sum_map_add]
  congr 1
  apply List.map_congr_left
  intro host _
  rw [instances_consumeCapacity, consumeInstances_apply, onHost]
  cases models.instances host with
  | none => rfl
  | some inst => exact hincrease host inst

theorem sum_executionCharge {inst : TaskManagerInstance}
    (hexecution : task.executionNode = some host) (hmember : host ∈ group.instances)
    (hinst : models.instances host = some inst) :
    (group.instances.map (models.onHost fun host inst =>
        executionCharge task host inst.nodeType)).sum =
      if inst.nodeType ≠ .control then task.kind.taskImpact else 0 := by
  rw [@sum_single host _ group.instances_nodup, if_pos hmember, onHost_of_some hinst,
    executionCharge]
  · simp [hexecution]
  · intro other hne
    apply onHost_eq_zero
    intro inst
    exact executionCharge_of_ne fun hsome =>
      hne (Option.some.inj (hsome.symm.trans hexecution))

theorem sum_jobCharge {inst : TaskManagerInstance}
    (hexecution : task.executionNode = some host) (hmember : host ∈ group.instances)
    (hinst : models.instances host = some inst) :
    (group.instances.map (models.onHost fun host inst =>
        jobCharge task host inst.nodeType)).sum =
      if inst.nodeType ≠ .control then 1 else 0 := by
  rw [@sum_single host _ group.instances_nodup, if_pos hmember, onHost_of_some hinst,
    jobCharge]
  · simp [hexecution]
  · intro other hne
    apply onHost_eq_zero
    intro inst
    exact if_neg fun hcharged => hne (Option.some.inj (hcharged.1.symm.trans hexecution))

theorem sum_controlCharge {controller : Hostname} {inst : TaskManagerInstance}
    (hcontroller : task.controllerNode = some controller)
    (hinst : models.instances controller = some inst) (hnode : inst.nodeType ≠ .execution) :
    (group.instances.map (models.onHost fun host inst =>
        models.controlCharge task host inst.nodeType)).sum =
      if controller ∈ group.instances then models.controlTaskImpact else 0 := by
  have hcharged : task.controllerNode = some controller ∧ inst.nodeType ≠ .execution :=
    ⟨hcontroller, hnode⟩
  rw [@sum_single controller _ group.instances_nodup, onHost_of_some hinst, controlCharge,
    if_pos hcharged]
  intro other hne
  apply onHost_eq_zero
  intro inst
  exact controlCharge_of_ne fun hsome =>
    hne (Option.some.inj (hsome.symm.trans hcontroller))

theorem counters_consumeCapacity {controller : Hostname}
    {inst controlling : TaskManagerInstance} (hregular : group.isContainerGroup = false)
    (hexecution : task.executionNode = some host) (hmember : host ∈ group.instances)
    (hinst : models.instances host = some inst)
    (hcontroller : task.controllerNode = some controller)
    (hcontrolling : models.instances controller = some controlling)
    (hnode : controlling.nodeType ≠ .execution) :
    (models.consumeCapacity task).getConsumedCapacity group =
        models.getConsumedCapacity group +
          ((if inst.nodeType ≠ .control then task.kind.taskImpact else 0) +
            if controller ∈ group.instances then models.controlTaskImpact else 0) ∧
      (models.consumeCapacity task).getJobsRunning group =
        models.getJobsRunning group + if inst.nodeType ≠ .control then 1 else 0 := by
  constructor
  · have hsum := @sum_members_consumeCapacity models task group
      TaskManagerInstance.consumedCapacity (fun host inst =>
        executionCharge task host inst.nodeType + models.controlCharge task host inst.nodeType)
      fun _ _ => rfl
    have hsplit : (models.onHost fun host inst =>
          executionCharge task host inst.nodeType +
            models.controlCharge task host inst.nodeType) =
        fun host => models.onHost (fun host inst => executionCharge task host inst.nodeType)
            host + models.onHost (fun host inst => models.controlCharge task host
              inst.nodeType) host := by
      funext host
      simp only [onHost]
      cases models.instances host <;> rfl
    rw [hsplit, List.sum_map_add, sum_executionCharge hexecution hmember hinst,
      sum_controlCharge hcontroller hcontrolling hnode] at hsum
    simp only [getConsumedCapacity, hregular, Bool.false_eq_true, if_false]
    exact hsum
  · have hsum := @sum_members_consumeCapacity models task group
      TaskManagerInstance.jobsRunning (fun host inst => jobCharge task host inst.nodeType)
      fun _ _ => rfl
    rw [sum_jobCharge hexecution hmember hinst] at hsum
    simp only [getJobsRunning, hregular, Bool.false_eq_true, if_false]
    exact hsum

theorem instanceGroups_of_regular
    (hregular : (models.instanceGroups ig).isContainerGroup = false) :
    (models.consumeCapacity task).instanceGroups ig = models.instanceGroups ig := by
  rw [instanceGroups_consumeCapacity, consumeGroups_apply, if_neg]
  intro hcharged
  rw [hregular] at hcharged
  cases hcharged.2.2

/-! ## The limits after a start -/

theorem Fits.exists_instance {capacityType : CapacityType} {impact hybridImpact : ℕ}
    (hfits : models.Fits capacityType impact hybridImpact host) :
    ∃ inst, models.instances host = some inst ∧ inst.nodeType.serves capacityType = true := by
  obtain ⟨inst, hinst, hserves, -⟩ := hfits
  exact ⟨inst, hinst, hserves⟩

theorem serves_control {nodeType : NodeType} :
    nodeType.serves .control = true ↔ nodeType ≠ .execution := by
  cases nodeType <;> decide

theorem serves_execution {nodeType : NodeType} :
    nodeType.serves .execution = true ↔ nodeType ≠ .control := by
  cases nodeType <;> decide

theorem limitsHold_placeOn {controller : Hostname}
    (hkind : task.kind.capacityType = some .execution)
    (hcontroller : ∃ inst, models.instances controller = some inst ∧
      inst.nodeType.serves .control = true)
    (hremaining : models.hasRemainingTaskCapacity (models.instanceGroups ig) task = true)
    (hregular : (models.instanceGroups ig).isContainerGroup = false)
    (hmember : host ∈ (models.instanceGroups ig).instances)
    (hhost : ∃ inst, models.instances host = some inst ∧
      inst.nodeType.serves .execution = true) :
    let placed := models.placeOn { task with controllerNode := some controller } ig host
    (models.consumeCapacity placed).LimitsHold ig ↔
      (models.Undercounted placed ig → models.HasRoom placed ig) := by
  intro placed
  obtain ⟨inst, hinst, hserves⟩ := hhost
  have hnode := serves_execution.mp hserves
  obtain ⟨control, hcontrol, controlling, hcontrolling, hcontrolNode⟩ :
      ∃ control, placed.controllerNode = some control ∧
        ∃ controlling, models.instances control = some controlling ∧
          controlling.nodeType ≠ .execution := by
    by_cases hhybrid : inst.nodeType = .hybrid
    · exact ⟨host, by simp [placed, placeOn, hinst, hhybrid], inst, hinst, by simp [hhybrid]⟩
    · obtain ⟨controlling, hcontrolling, hcontrols⟩ := hcontroller
      exact ⟨controller, by simp [placed, placeOn, hinst, hhybrid], controlling,
        hcontrolling, serves_control.mp hcontrols⟩
  obtain ⟨hconsumed, hjobs⟩ := @counters_consumeCapacity models placed
    (models.instanceGroups ig) host control inst controlling hregular rfl hmember hinst
    hcontrol hcontrolling hcontrolNode
  obtain ⟨htestedJobs, htestedForks⟩ := within_of_hasRemaining hremaining
  have hundercounted : models.Undercounted placed ig ↔
      control ∈ (models.instanceGroups ig).instances := by
    have hplacedKind : placed.kind.capacityType = some .execution := hkind
    simp only [Undercounted, hplacedKind, hcontrol, Option.some.injEq]
    simp
  have himpact : placed.kind.taskImpact = task.kind.taskImpact := rfl
  simp only [LimitsHold, ForksWithin, JobsWithin, instanceGroups_of_regular hregular,
    hconsumed, hjobs, hundercounted, HasRoom, himpact, hnode, ne_eq, not_false_eq_true,
    if_true]
  by_cases hinside : control ∈ (models.instanceGroups ig).instances
  · simp [hinside]
  · simp only [hinside, if_false, Nat.add_zero, false_imp_iff, iff_true]
    exact ⟨htestedForks, htestedJobs⟩

theorem limitsHold_control (hkind : task.kind.capacityType = some .control)
    (hmember : host ∈ (models.instanceGroups models.controlplaneIg).instances)
    (hhost : ∃ inst, models.instances host = some inst ∧
      inst.nodeType.serves .control = true)
    (hremaining : models.hasRemainingControlCapacity
      (models.instanceGroups models.controlplaneIg) = true) :
    let placed : Task := { task with
      controllerNode := some host
      executionNode := some host
      instanceGroup := some models.controlplaneIg }
    (models.consumeCapacity placed).LimitsHold models.controlplaneIg ↔
      (models.Undercounted placed models.controlplaneIg →
        models.HasRoom placed models.controlplaneIg) := by
  intro placed
  obtain ⟨inst, hinst, hserves⟩ := hhost
  have hnode := serves_control.mp hserves
  obtain ⟨hconsumed, hjobs⟩ := @counters_consumeCapacity models placed
    (models.instanceGroups models.controlplaneIg) host host inst inst
    models.controlplane_regular rfl hmember hinst rfl hinst hnode
  obtain ⟨htestedJobs, htestedForks⟩ := within_of_hasRemaining hremaining
  have hundercounted : models.Undercounted placed models.controlplaneIg ↔
      inst.nodeType = .hybrid := by
    have hplacedKind : placed.kind.capacityType = some .control := hkind
    have hexecution : placed.executionNode.bind models.instances = some inst := hinst
    simp only [Undercounted, hplacedKind, hexecution, Option.some.injEq]
    simp
  simp only [LimitsHold, ForksWithin, JobsWithin,
    instanceGroups_of_regular models.controlplane_regular, hconsumed, hjobs, hundercounted,
    HasRoom, hmember, if_true]
  cases hnodeType : inst.nodeType with
  | execution => exact absurd hnodeType hnode
  | hybrid => simp
  | control =>
    simp only [ne_eq, not_true_eq_false, if_false, Nat.zero_add, Nat.add_zero]
    exact iff_of_true ⟨htestedForks, htestedJobs⟩ (fun hhybrid => by cases hhybrid)

/-- After a start in a group its limits hold exactly when the group is a
container group, or has room for what was left out of the test. -/
theorem limitsHold_of_placement (hplacement : Placement models task placed fromIdle)
    (hworkflow : task.kind.capacityType = none → task.instanceGroup = none)
    (hgroup : placed.instanceGroup = some ig) :
    (models.consumeCapacity placed).LimitsHold ig ↔
      ((models.instanceGroups ig).isContainerGroup = true ∨
        (models.Undercounted placed ig → models.HasRoom placed ig)) := by
  have hsimplify : ∀ {ig}, (models.instanceGroups ig).isContainerGroup = false →
      (((models.instanceGroups ig).isContainerGroup = true ∨
        (models.Undercounted placed ig → models.HasRoom placed ig)) ↔
        (models.Undercounted placed ig → models.HasRoom placed ig)) := by
    intro ig hregular
    simp [hregular]
  cases hplacement with
  | workflowJob hkind =>
    rw [hworkflow hkind] at hgroup
    cases hgroup
  | control hkind hmember hfits hremaining =>
    obtain rfl := Option.some.inj hgroup
    rw [hsimplify models.controlplane_regular]
    exact limitsHold_control hkind hmember hfits.exists_instance hremaining
  | container hkind hfits hremaining hcontainer =>
    obtain rfl := Option.some.inj hgroup
    obtain ⟨hjobs, hforks⟩ := within_of_hasRemaining hremaining
    have hwithin := containerWithin_of_placement
      (.container hkind hfits hremaining hcontainer) hworkflow hcontainer
    have hbefore : models.LimitsHold _ :=
      ⟨fun hmax => (Nat.le_add_right _ _).trans (hforks hmax),
        fun hmax => (Nat.le_add_right _ _).trans (hjobs hmax)⟩
    exact iff_of_true ⟨hwithin.2 hbefore.1, hwithin.1 hbefore.2⟩ (Or.inl hcontainer)
  | fitted hkind hcontroller hremaining hregular hmember hfits =>
    obtain rfl := Option.some.inj hgroup
    rw [hsimplify hregular]
    exact limitsHold_placeOn hkind hcontroller.exists_instance hremaining hregular hmember
      hfits.exists_instance
  | idle hkind hcontroller hremaining hregular hmember hidle =>
    obtain rfl := Option.some.inj hgroup
    obtain ⟨inst, hinst, hserves, -⟩ := hidle
    rw [hsimplify hregular]
    exact limitsHold_placeOn hkind hcontroller.exists_instance hremaining hregular hmember
      ⟨inst, hinst, hserves⟩

end TaskManagerModels

def Start.modelsAfter (start : Start) : TaskManagerModels :=
  start.models.consumeCapacity start.task

namespace TaskManager

/-- The tasks that may be started are well placed, and those in the log were
placed by the task manager. -/
structure LogPlaced (manager : TaskManager) : Prop where
  well_placed : manager.PendingWellPlaced
  starts : ∀ start ∈ manager.starts, ∃ task : Task, task.WellPlaced ∧
    Placement start.models task start.task start.fromIdle

variable {answers : Answers} {manager : TaskManager} {id : TaskId}

theorem logPlaced_processPendingTask (hlog : manager.LogPlaced)
    (hpending : (manager.tasks id).status = .pending) :
    (manager.processPendingTask answers id).LogPlaced where
  well_placed := pendingWellPlaced_processPendingTask hlog.well_placed
  starts := by
    obtain hsame | hfailed | ⟨placed, fromIdle, -, hplacement, hstart⟩ :=
      @processPendingTask_cases answers manager id
    · rw [hsame]
      exact hlog.starts
    · rw [hfailed]
      exact hlog.starts
    · rw [hstart]
      intro start hmem
      cases List.mem_cons.mp hmem with
      | inl hnew =>
        rw [hnew]
        exact ⟨_, hlog.well_placed id hpending, hplacement⟩
      | inr hold => exact hlog.starts start hold

/-- In every pass, right after each start in a group, the limits of the group
hold exactly when it is a container group or has room for what was left out of
the test. -/
theorem limitsHold_iff (cluster : Cluster) (tasks : TaskId → Task) (startTaskLimit : ℕ)
    (answers : Answers) {allTasks : List TaskId} (hnodup : allTasks.Nodup)
    (hplaced : ∀ id, (tasks id).WellPlaced) :
    ∀ start ∈ ((init cluster tasks startTaskLimit).processTasks answers allTasks).starts,
      ∀ ig, start.task.instanceGroup = some ig →
        (start.modelsAfter.LimitsHold ig ↔
          ((start.models.instanceGroups ig).isContainerGroup = true ∨
            (start.models.Undercounted start.task ig →
              start.models.HasRoom start.task ig))) := by
  have hstart : ((init cluster tasks startTaskLimit).countTasks allTasks).LogPlaced :=
    { well_placed := fun id _ => by
        rw [tasks_countTasks]
        exact hplaced id
      starts := by
        rw [starts_countTasks]
        exact fun start hmem => absurd hmem List.not_mem_nil }
  have hlog := processTasks_invariant LogPlaced
    (fun _ _ _ hlog => @logPlaced_processPendingTask answers _ _ hlog) hnodup hstart
  intro start hmem ig hgroup
  obtain ⟨task, htask, hplacement⟩ := hlog.starts start hmem
  exact TaskManagerModels.limitsHold_of_placement hplacement
    (fun hkind => (htask.workflowJob hkind).2.2) hgroup

def jobInGroup (ig : GroupId) : TaskId → Task :=
  fun _ => pendingTask (jobOfSize 0 5) [ig]

theorem wellPlaced_jobInGroup {ig : GroupId} (id : TaskId) :
    (jobInGroup ig id).WellPlaced :=
  ⟨fun _ => rfl, fun _ => ⟨rfl, rfl, rfl⟩⟩

theorem limitsHold_execution_node :
    ∃ start ∈ ((init (smallCluster 6 1) (jobInGroup 1) 10).processTasks allStart [0]).starts,
      start.task.instanceGroup = some 1 ∧ start.modelsAfter.LimitsHold 1 := by
  have hplaced : ((init (smallCluster 6 1) (jobInGroup 1) 10).processTasks allStart
      [0]).starts.any (fun start =>
        decide (start.task.instanceGroup = some 1) &&
          decide (start.task.kind.capacityType = some .execution) &&
          decide (start.task.controllerNode = some 2) &&
          decide ((start.models.instanceGroups 1).instances = [1])) = true := by decide
  obtain ⟨start, hmem, htest⟩ := List.any_eq_true.mp hplaced
  simp only [Bool.and_eq_true, decide_eq_true_eq] at htest
  obtain ⟨⟨⟨hgroup, hkind⟩, hcontroller⟩, hinstances⟩ := htest
  have hcounted : ¬ start.models.Undercounted start.task 1 := by
    simp [TaskManagerModels.Undercounted, hkind, hcontroller, hinstances]
  exact ⟨start, hmem, hgroup, (limitsHold_iff (smallCluster 6 1) (jobInGroup 1) 10 allStart
    (by decide) wellPlaced_jobInGroup start hmem 1 hgroup).mpr
    (Or.inr fun hbad => absurd hbad hcounted)⟩

/-- The job fits, but its controller runs in the group too: with `7` forks the
group is over its limit of `6`. -/
theorem over_limit_on_hybrid_node :
    ¬ ∀ (cluster : Cluster) (tasks : TaskId → Task) (startTaskLimit : ℕ)
      (answers : Answers) (allTasks : List TaskId), allTasks.Nodup →
      (∀ id, (tasks id).WellPlaced) →
      ∀ start ∈ ((init cluster tasks startTaskLimit).processTasks answers allTasks).starts,
        ∀ ig, start.task.instanceGroup = some ig → start.modelsAfter.LimitsHold ig := by
  intro hclaim
  have hover : ((init (smallCluster 6 1) (jobInGroup 3) 10).processTasks allStart
      [0]).starts.any (fun start =>
        decide (start.task.instanceGroup = some 3) &&
          decide (start.modelsAfter.getConsumedCapacity
            (start.modelsAfter.instanceGroups 3) = 7) &&
          decide ((start.modelsAfter.instanceGroups 3).maxForks = 6)) = true := by decide
  obtain ⟨start, hmem, htest⟩ := List.any_eq_true.mp hover
  simp only [Bool.and_eq_true, decide_eq_true_eq] at htest
  obtain ⟨⟨hgroup, hconsumed⟩, hlimit⟩ := htest
  have hforks := (hclaim _ _ _ _ _ (by decide) wellPlaced_jobInGroup start hmem 3 hgroup).1
  simp only [TaskManagerModels.ForksWithin, hconsumed, hlimit] at hforks
  exact absurd hforks (by decide)

end TaskManager

end Forail.Scheduling
