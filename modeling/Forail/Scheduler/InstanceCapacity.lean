import Forail.Scheduler.TaskManager

/-!
# Capacity of instances and of container groups

Placing a task never consumes more of an instance than it has, unless the
instance had no running job and was chosen for that.  What is tested is an
impact on one controller, what is charged is computed from the nodes in the
end; the two meet because a hybrid instance tests both and then controls the
task itself.
-/

namespace Forail.Scheduling

open Forail.UnifiedJobs Forail.Tasks

variable {models : TaskManagerModels} {task placed : Task} {fromIdle : Bool}
  {host : Hostname} {ig : GroupId}

namespace TaskManagerModels

def InstanceWithin (models : TaskManagerModels) (host : Hostname) : Prop :=
  ∀ inst ∈ models.instances host, inst.consumedCapacity ≤ inst.capacity

def JobsWithin (models : TaskManagerModels) (ig : GroupId) : Prop :=
  let group := models.instanceGroups ig
  group.maxConcurrentJobs ≠ 0 → models.getJobsRunning group ≤ group.maxConcurrentJobs

def ForksWithin (models : TaskManagerModels) (ig : GroupId) : Prop :=
  let group := models.instanceGroups ig
  group.maxForks ≠ 0 → models.getConsumedCapacity group ≤ group.maxForks

def JobsConsume (models : TaskManagerModels) : Prop :=
  ∀ host, ∀ inst ∈ models.instances host, 0 < inst.jobsRunning → 0 < inst.consumedCapacity

def charge (models : TaskManagerModels) (task : Task) (host : Hostname)
    (nodeType : NodeType) : ℕ :=
  executionCharge task host nodeType + models.controlCharge task host nodeType

theorem executionCharge_le {nodeType : NodeType} :
    executionCharge task host nodeType ≤ task.kind.taskImpact := by
  rw [executionCharge]
  split
  · exact le_rfl
  · exact Nat.zero_le _

theorem controlCharge_le {nodeType : NodeType} :
    models.controlCharge task host nodeType ≤ models.controlTaskImpact := by
  rw [controlCharge]
  split
  · exact le_rfl
  · exact Nat.zero_le _

theorem executionCharge_of_ne {nodeType : NodeType} (hne : task.executionNode ≠ some host) :
    executionCharge task host nodeType = 0 :=
  if_neg fun h => hne h.1

theorem controlCharge_of_ne {nodeType : NodeType} (hne : task.controllerNode ≠ some host) :
    models.controlCharge task host nodeType = 0 :=
  if_neg fun h => hne h.1

theorem mem_consumeCapacity {inst : TaskManagerInstance}
    (hinst : inst ∈ (models.consumeCapacity task).instances host) :
    ∃ old ∈ models.instances host, inst = models.charged task host old := by
  rw [instances_consumeCapacity, consumeInstances_apply] at hinst
  obtain ⟨old, hold, hsame⟩ := Option.map_eq_some_iff.mp hinst
  exact ⟨old, hold, hsame.symm⟩

theorem instanceWithin_of_room
    (hroom : ∀ inst ∈ models.instances host,
      models.charge task host inst.nodeType ≤ inst.remainingCapacity)
    (hwithin : models.InstanceWithin host) :
    (models.consumeCapacity task).InstanceWithin host := by
  intro inst hinst
  obtain ⟨old, hold, rfl⟩ := mem_consumeCapacity hinst
  calc old.consumedCapacity + models.charge task host old.nodeType
      ≤ old.consumedCapacity + (old.capacity - old.consumedCapacity) :=
        Nat.add_le_add_left (hroom old hold) _
    _ = old.capacity := Nat.add_sub_cancel' (hwithin old hold)

theorem controlCharge_le_of_fits {capacityType : CapacityType} {hybridImpact : ℕ}
    (hfits : models.Fits capacityType models.controlTaskImpact hybridImpact host)
    {inst : TaskManagerInstance} (hinst : inst ∈ models.instances host) :
    models.controlCharge task host inst.nodeType ≤ inst.remainingCapacity := by
  obtain ⟨fitting, hfitting, -, hroom⟩ := hfits
  obtain rfl : fitting = inst := Option.some.inj (hfitting.symm.trans hinst)
  exact controlCharge_le.trans ((Nat.le_add_right _ _).trans hroom)

theorem controllerNode_placeOn {controller other : Hostname}
    (hcontroller : (models.placeOn { task with controllerNode := some controller } ig
      host).controllerNode = some other) :
    (other = host ∧ (models.instances host).any (fun inst =>
        decide (inst.nodeType = .hybrid)) = true) ∨
      (other = controller ∧ (models.instances host).any (fun inst =>
        decide (inst.nodeType = .hybrid)) = false) := by
  simp only [placeOn] at hcontroller
  split at hcontroller
  · rename_i hhybrid
    exact Or.inl ⟨(Option.some.inj hcontroller).symm, hhybrid⟩
  · rename_i hhybrid
    exact Or.inr ⟨(Option.some.inj hcontroller).symm, Bool.eq_false_iff.mpr hhybrid⟩

theorem charge_placeOn_of_ne {controller other : Hostname}
    (hcontroller : models.Fits .control models.controlTaskImpact 0 controller)
    (hne : other ≠ host) {inst : TaskManagerInstance}
    (hinst : inst ∈ models.instances other) :
    models.charge (models.placeOn { task with controllerNode := some controller } ig host)
      other inst.nodeType ≤ inst.remainingCapacity := by
  have hexecution : (models.placeOn { task with controllerNode := some controller } ig
      host).executionNode ≠ some other := fun hsome => hne (Option.some.inj hsome).symm
  rw [charge, executionCharge_of_ne hexecution, Nat.zero_add]
  by_cases hcontrol : (models.placeOn { task with controllerNode := some controller } ig
      host).controllerNode = some other
  · cases controllerNode_placeOn hcontrol with
    | inl hself => exact absurd hself.1 hne
    | inr hother =>
      rw [← hother.1] at hcontroller
      exact controlCharge_le_of_fits hcontroller hinst
  · rw [controlCharge_of_ne hcontrol]
    exact Nat.zero_le _

theorem charge_placeOn_self {controller : Hostname}
    (hfits : models.Fits .execution task.kind.taskImpact models.controlTaskImpact host)
    {inst : TaskManagerInstance} (hinst : inst ∈ models.instances host) :
    models.charge (models.placeOn { task with controllerNode := some controller } ig host)
      host inst.nodeType ≤ inst.remainingCapacity := by
  obtain ⟨fitting, hfitting, hserves, hroom⟩ := hfits
  obtain rfl : fitting = inst := Option.some.inj (hfitting.symm.trans hinst)
  refine le_trans ?_ hroom
  apply Nat.add_le_add executionCharge_le
  cases hnode : fitting.nodeType with
  | control => simp [hnode, NodeType.serves] at hserves
  | execution => simp [controlCharge]
  | hybrid => exact controlCharge_le

/-- Starting a task keeps every instance within its capacity, except an idle
instance that was chosen for the task. -/
theorem instanceWithin_of_placement (hplacement : Placement models task placed fromIdle)
    (hunplaced : task.executionNode = none)
    (hworkflow : task.kind.capacityType = none → task.controllerNode = none)
    (hwithin : models.InstanceWithin host) :
    (models.consumeCapacity placed).InstanceWithin host ∨
      (fromIdle = true ∧ placed.executionNode = some host ∧ models.Idle .execution host) := by
  cases hplacement with
  | workflowJob hkind =>
    left
    apply instanceWithin_of_room _ hwithin
    intro inst _
    have hexecution : task.executionNode ≠ some host := by simp [hunplaced]
    have hcontrol : task.controllerNode ≠ some host := by simp [hworkflow hkind]
    rw [charge, executionCharge_of_ne hexecution, controlCharge_of_ne hcontrol]
    exact Nat.zero_le _
  | @control node _ _ hfits _ =>
    left
    apply instanceWithin_of_room _ hwithin
    intro inst hinst
    by_cases hnode : node = host
    · subst hnode
      obtain ⟨fitting, hfitting, -, hroom⟩ := hfits
      obtain rfl : fitting = inst := Option.some.inj (hfitting.symm.trans hinst)
      exact (Nat.add_le_add executionCharge_le controlCharge_le).trans
        ((Nat.le_add_right _ _).trans hroom)
    · have hother : some node ≠ some host := fun hsome => hnode (Option.some.inj hsome)
      rw [charge, executionCharge_of_ne hother, controlCharge_of_ne hother]
      exact Nat.zero_le _
  | @container controller ig _ hfits _ _ =>
    left
    apply instanceWithin_of_room _ hwithin
    intro inst hinst
    have hexecution : Task.executionNode { task with
        controllerNode := some controller, instanceGroup := some ig } ≠ some host := by
      simp [hunplaced]
    rw [charge, executionCharge_of_ne hexecution, Nat.zero_add]
    by_cases hnode : controller = host
    · subst hnode
      exact controlCharge_le_of_fits hfits hinst
    · rw [controlCharge_of_ne fun hsome => hnode (Option.some.inj hsome)]
      exact Nat.zero_le _
  | @fitted controller node _ _ hcontroller _ _ _ hfits =>
    left
    apply instanceWithin_of_room _ hwithin
    intro inst hinst
    by_cases hnode : host = node
    · subst hnode
      exact charge_placeOn_self hfits hinst
    · exact charge_placeOn_of_ne hcontroller hnode hinst
  | @idle controller node _ _ hcontroller _ _ _ hidle =>
    by_cases hnode : host = node
    · subst hnode
      exact Or.inr ⟨rfl, rfl, hidle⟩
    · left
      apply instanceWithin_of_room _ hwithin
      intro inst hinst
      exact charge_placeOn_of_ne hcontroller hnode hinst

theorem jobsConsume_consumeCapacity (hconsume : models.JobsConsume)
    (hkind : task.executionNode ≠ none → task.kind.capacityType ≠ none) :
    (models.consumeCapacity task).JobsConsume := by
  intro host inst hinst hrunning
  obtain ⟨old, hold, rfl⟩ := mem_consumeCapacity hinst
  simp only [charged] at hrunning ⊢
  by_cases hcharged : task.executionNode = some host ∧ old.nodeType ≠ .control
  · have himpact : 0 < executionCharge task host old.nodeType := by
      rw [executionCharge, if_pos hcharged]
      exact TaskKind.taskImpact_pos (hkind (by simp [hcharged.1]))
    omega
  · rw [jobCharge, if_neg hcharged, Nat.add_zero] at hrunning
    exact Nat.add_pos_left (hconsume host old hold hrunning) _

theorem Idle.jobsRunning {capacityType : CapacityType} (hidle : models.Idle capacityType host)
    (hconsume : models.JobsConsume) :
    ∃ inst, models.instances host = some inst ∧ inst.jobsRunning = 0 := by
  obtain ⟨inst, hinst, -, hcapacity, hnojob | hunused⟩ := hidle
  · exact ⟨inst, hinst, hnojob⟩
  · refine ⟨inst, hinst, ?_⟩
    by_contra hrunning
    have hconsumed := hconsume host inst hinst (Nat.pos_of_ne_zero hrunning)
    rw [TaskManagerInstance.remainingCapacity] at hunused
    omega

/-! ## Container groups -/

theorem toInstanceGroup_consumeCapacity :
    ((models.consumeCapacity task).instanceGroups ig).toInstanceGroup =
      (models.instanceGroups ig).toInstanceGroup := by
  rw [instanceGroups_consumeCapacity, consumeGroups_apply]
  split <;> rfl

theorem container_of_placement (hplacement : Placement models task placed fromIdle)
    (hworkflow : task.kind.capacityType = none → task.instanceGroup = none)
    (hcontainer : (models.instanceGroups ig).isContainerGroup = true) :
    (models.consumeCapacity placed).instanceGroups ig = models.instanceGroups ig ∨
      (models.hasRemainingTaskCapacity (models.instanceGroups ig) task = true ∧
        (models.consumeCapacity placed).instanceGroups ig =
          (models.instanceGroups ig).consumeCapacity task.kind.taskImpact) := by
  rw [instanceGroups_consumeCapacity, consumeGroups_apply]
  by_cases hcharged : placed.instanceGroup = some ig ∧ models.pkIgMap ig = true ∧
      (models.instanceGroups ig).isContainerGroup = true
  · rw [if_pos hcharged]
    right
    have hgroup := hcharged.1
    cases hplacement with
    | workflowJob hkind =>
      rw [hworkflow hkind] at hgroup
      cases hgroup
    | control hkind hmember hfits hremaining =>
      obtain rfl := Option.some.inj hgroup
      rw [models.controlplane_regular] at hcontainer
      cases hcontainer
    | container hkind hfits hremaining _ =>
      obtain rfl := Option.some.inj hgroup
      exact ⟨hremaining, rfl⟩
    | fitted hkind hcontroller hremaining hregular hmember hfits =>
      obtain rfl := Option.some.inj hgroup
      rw [hregular] at hcontainer
      cases hcontainer
    | idle hkind hcontroller hremaining hregular hmember hidle =>
      obtain rfl := Option.some.inj hgroup
      rw [hregular] at hcontainer
      cases hcontainer
  · rw [if_neg hcharged]
    exact Or.inl rfl

theorem within_of_hasRemaining {group : TaskManagerInstanceGroup} {taskImpact jobImpact : ℕ}
    (hremaining : models.hasRemainingCapacity group taskImpact jobImpact = true) :
    (group.maxConcurrentJobs ≠ 0 →
        models.getJobsRunning group + jobImpact ≤ group.maxConcurrentJobs) ∧
      (group.maxForks ≠ 0 →
        models.getConsumedCapacity group + taskImpact ≤ group.maxForks) := by
  simp only [hasRemainingCapacity, Bool.and_eq_true, Bool.or_eq_true,
    decide_eq_true_eq] at hremaining
  exact ⟨fun hmax => hremaining.1.resolve_left hmax, fun hmax => hremaining.2.resolve_left hmax⟩

theorem containerWithin_of_placement (hplacement : Placement models task placed fromIdle)
    (hworkflow : task.kind.capacityType = none → task.instanceGroup = none)
    (hcontainer : (models.instanceGroups ig).isContainerGroup = true) :
    (models.JobsWithin ig → (models.consumeCapacity placed).JobsWithin ig) ∧
      (models.ForksWithin ig → (models.consumeCapacity placed).ForksWithin ig) := by
  simp only [JobsWithin, ForksWithin, getJobsRunning, getConsumedCapacity]
  cases container_of_placement hplacement hworkflow hcontainer with
  | inl hsame =>
    rw [hsame]
    simp only [hcontainer, if_true]
    exact ⟨fun hjobs => hjobs, fun hforks => hforks⟩
  | inr hconsumed =>
    obtain ⟨hremaining, hgroup⟩ := hconsumed
    obtain ⟨hjobs, hforks⟩ := within_of_hasRemaining hremaining
    simp only [getJobsRunning, getConsumedCapacity, hcontainer, if_true] at hjobs hforks
    rw [hgroup]
    simp only [TaskManagerInstanceGroup.consumeCapacity, hcontainer, if_true]
    exact ⟨fun _ => hjobs, fun _ => hforks⟩

end TaskManagerModels

/-! ## A pass -/

namespace TaskManager

/-- A task was placed on the host by `find_largest_idle_instance` while no job
ran there. -/
def PlacedOnIdle (manager : TaskManager) (host : Hostname) : Prop :=
  ∃ start ∈ manager.starts, start.fromIdle = true ∧
    start.task.executionNode = some host ∧
    ∃ inst, start.models.instances host = some inst ∧ inst.jobsRunning = 0

structure Within (before manager : TaskManager) : Prop where
  well_placed : manager.PendingWellPlaced
  jobs_consume : manager.tmModels.JobsConsume
  instances : ∀ host, manager.tmModels.InstanceWithin host ∨ manager.PlacedOnIdle host
  groups : ∀ ig, (manager.tmModels.instanceGroups ig).toInstanceGroup =
    (before.tmModels.instanceGroups ig).toInstanceGroup
  containers : ∀ ig, (before.tmModels.instanceGroups ig).isContainerGroup = true →
    (before.tmModels.JobsWithin ig → manager.tmModels.JobsWithin ig) ∧
      (before.tmModels.ForksWithin ig → manager.tmModels.ForksWithin ig)

variable {answers : Answers} {before manager : TaskManager} {id : TaskId}

theorem PlacedOnIdle.startTask (hidle : manager.PlacedOnIdle host) :
    (manager.startTask answers id placed fromIdle).PlacedOnIdle host := by
  obtain ⟨start, hstart, hplaced⟩ := hidle
  exact ⟨start, List.mem_cons_of_mem _ hstart, hplaced⟩

theorem within_startTask (hwithin : Within before manager)
    (hpending : (manager.tasks id).status = .pending)
    (hplacement : Placement manager.tmModels (manager.tasks id) placed fromIdle)
    (hplaced' : (manager.startTask answers id placed fromIdle).PendingWellPlaced) :
    Within before (manager.startTask answers id placed fromIdle) := by
  have hplaced := hwithin.well_placed id hpending
  have hgroup := fun ig => congrArg InstanceGroup.isContainerGroup (hwithin.groups ig)
  exact
    { well_placed := hplaced'
      jobs_consume := by
        apply TaskManagerModels.jobsConsume_consumeCapacity hwithin.jobs_consume
        intro hnode
        cases hplacement with
        | workflowJob hkind => exact absurd (hplaced.workflowJob hkind).2.1 hnode
        | control hkind => simp [hkind]
        | container hkind => simp [hkind]
        | fitted hkind => simp [TaskManagerModels.placeOn, hkind]
        | idle hkind => simp [TaskManagerModels.placeOn, hkind]
      instances := by
        intro host
        cases hwithin.instances host with
        | inr hidle => exact Or.inr hidle.startTask
        | inl hinstance =>
          cases TaskManagerModels.instanceWithin_of_placement hplacement
            (hplaced.pending hpending) (fun hkind => (hplaced.workflowJob hkind).1)
            hinstance with
          | inl hstill => exact Or.inl hstill
          | inr hidle =>
            exact Or.inr ⟨_, List.mem_cons_self, hidle.1, hidle.2.1,
              hidle.2.2.jobsRunning hwithin.jobs_consume⟩
      groups := fun ig =>
        TaskManagerModels.toInstanceGroup_consumeCapacity.trans (hwithin.groups ig)
      containers := by
        intro ig hcontainer
        obtain ⟨hjobs, hforks⟩ := hwithin.containers ig hcontainer
        obtain ⟨hjobs', hforks'⟩ := TaskManagerModels.containerWithin_of_placement hplacement
          (fun hkind => (hplaced.workflowJob hkind).2.2) ((hgroup ig).trans hcontainer)
        exact ⟨hjobs' ∘ hjobs, hforks' ∘ hforks⟩ }

theorem within_processPendingTask (hwithin : Within before manager)
    (hpending : (manager.tasks id).status = .pending) :
    Within before (manager.processPendingTask answers id) := by
  have hplaced := @pendingWellPlaced_processPendingTask answers manager id hwithin.well_placed
  obtain hsame | hfailed | ⟨placed, fromIdle, -, hplacement, hstart⟩ :=
    @processPendingTask_cases answers manager id
  · rw [hsame]
    exact hwithin
  · rw [hfailed] at hplaced ⊢
    exact { hwithin with well_placed := hplaced }
  · rw [hstart] at hplaced ⊢
    exact within_startTask hwithin hpending hplacement hplaced

variable {cluster : Cluster} {tasks : TaskId → Task} {startTaskLimit : ℕ}
  {allTasks : List TaskId}

theorem jobsConsume_ofCluster : (TaskManagerModels.ofCluster cluster).JobsConsume := by
  intro host inst hinst hrunning
  obtain ⟨obj, -, rfl⟩ := Option.map_eq_some_iff.mp hinst
  exact absurd hrunning (Nat.lt_irrefl 0)

theorem jobsConsume_countTasks (hplaced : ∀ id, (tasks id).WellPlaced) :
    ((init cluster tasks startTaskLimit).countTasks allTasks).tmModels.JobsConsume := by
  refine (@countTasks_invariant (init cluster tasks startTaskLimit)
    (fun manager => manager.tmModels.JobsConsume) allTasks ?_ jobsConsume_ofCluster).1
  intro before id htasks hconsume _
  apply TaskManagerModels.jobsConsume_consumeCapacity hconsume
  rw [htasks]
  intro hnode hkind
  exact hnode ((hplaced id).workflowJob hkind).2.1

def jobAfterJob : TaskId → Task
  | 0 => { pendingTask (jobOfSize 0 5) [1] with
      status := .running
      controllerNode := some 0
      executionNode := some 1
      instanceGroup := some 1 }
  | id => pendingTask (jobOfSize id 2) [1]

theorem wellPlaced_jobAfterJob (id : TaskId) : (jobAfterJob id).WellPlaced := by
  cases id with
  | zero => exact ⟨by decide, by decide⟩
  | succ id => exact ⟨fun _ => rfl, fun _ => ⟨rfl, rfl, rfl⟩⟩

end TaskManager

end Forail.Scheduling
