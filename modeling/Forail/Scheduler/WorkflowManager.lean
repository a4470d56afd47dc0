import Forail.Core.Runs
import Forail.Scheduler.DoNotRun

/-!
# Passes of the workflow manager

One pass of `spawn_workflow_graph_jobs` over one running workflow job, and the
events between two passes: a user asks to cancel the workflow, a job of a node
moves on, a template is deleted.  The rows of the nodes are the state; a pass
builds its graph from the rows it finds and works on these objects in memory.
-/

namespace Forail.DagWorkflow

open Forail.SimpleDag Forail.UnifiedJobs

structure Launch where
  /-- The job would run a workflow template among its own ancestors. -/
  recursive : Bool
  /-- `_resources_sufficient_for_launch` -/
  resourcesSufficient : Bool
  /-- The answer of `signal_start`, which sets the status `pending` when it
  returns `True`. -/
  signalStart : Bool
  deriving DecidableEq, Repr

namespace Launch

def canStart (launch : Launch) : Bool :=
  !launch.recursive && launch.resourcesSufficient && launch.signalStart

def job (launch : Launch) : UnifiedJob where
  status := if launch.canStart then .pending else .failed
  celeryTaskId := ""
  cancelFlag := false

end Launch

structure WorkflowState where
  status : JobStatus
  cancelFlag : Bool
  nodes : NodeStates

/-- A workflow job that was just started: `start_task` sets it running, and its
nodes were copied without jobs. -/
structure WorkflowState.Started (state : WorkflowState) : Prop where
  running : state.status = .running
  not_canceled : state.cancelFlag = false
  no_job : ∀ node, (state.nodes node).job = none
  not_marked : ∀ node, (state.nodes node).doNotRun = false

def startedState (convergence : Bool) : WorkflowState where
  status := .running
  cancelFlag := false
  nodes := fun node =>
    { doNotRun := false
      job := none
      unifiedJobTemplate := some node
      allParentsMustConverge := convergence }

theorem started_startedState (convergence : Bool) :
    (startedState convergence).Started where
  running := rfl
  not_canceled := rfl
  no_job _ := rfl
  not_marked _ := rfl

def launchAll : NodeId → Launch := fun _ =>
  { recursive := false, resourcesSufficient := true, signalStart := true }

def NoActiveJob (dag : WorkflowDAG) (states : NodeStates) : Prop :=
  ∀ node ∈ dag.nodes, ∀ job ∈ (states node).job, ¬ job.status.Active

instance {dag : WorkflowDAG} {states : NodeStates} :
    Decidable (NoActiveJob dag states) :=
  inferInstanceAs
    (Decidable (∀ node ∈ dag.nodes, ∀ job ∈ (states node).job, ¬ job.status.Active))

namespace WorkflowDAG

/-- The loop over `spawn_nodes`: the object in memory gets its job, and `save`
writes all its fields to its row. -/
def saveSpawned (memory : NodeStates) (launch : NodeId → Launch)
    (spawnNodes : List NodeId) (rows : NodeStates) : NodeStates :=
  spawnNodes.foldl (fun rows spawnNode =>
    if (memory spawnNode).unifiedJobTemplate = none then rows
    else
      Function.update rows spawnNode
        { memory spawnNode with job := some (launch spawnNode).job }) rows

/-- The `update(do_not_run=True)` on the rows of the nodes without a job. -/
def markRows (dag : WorkflowDAG) (rows : NodeStates) : NodeStates := fun node =>
  if node ∈ dag.nodes ∧ (rows node).doNotRun = false ∧ (rows node).job = none then
    { rows node with doNotRun := true }
  else rows node

/-- The branch of a pass for a workflow job with `cancel_flag`.  The graph was
built before the rows are updated, so the objects in memory keep their flags;
`cancel` writes the rows of the jobs, which both see. -/
def cancelPass (dag : WorkflowDAG) (state : WorkflowState)
    (launch : NodeId → Launch) : WorkflowState :=
  let cancelFinished := (dag.cancelNodeJobs state.nodes).1
  let memory := (dag.cancelNodeJobs state.nodes).2
  let rows : NodeStates := fun node =>
    { dag.markRows state.nodes node with job := (memory node).job }
  if cancelFinished then { state with status := .canceled, nodes := rows }
  else
    { state with
      nodes := saveSpawned memory launch (dag.bfsNodesToRun memory) rows }

/-- The branch of a pass for a workflow job without `cancel_flag`.  The bulk
update writes the flags of the marked nodes, so that the rows are again what
the graph holds in memory; `none` when the topological sort does not return. -/
def progressPass (dag : WorkflowDAG) (state : WorkflowState)
    (launch : NodeId → Launch) : Option WorkflowState :=
  (dag.markDnrNodes state.nodes).map fun (memory, _) =>
    if dag.isWorkflowDone memory then
      { state with
        status :=
          if (dag.hasWorkflowFailed memory).isSome then .failed else .successful
        nodes := memory }
    else
      { state with
        nodes := saveSpawned memory launch (dag.bfsNodesToRun memory) memory }

/-- A pass over the workflow job; `get_tasks` selects the running ones. -/
def managerPass (dag : WorkflowDAG) (state : WorkflowState)
    (launch : NodeId → Launch) : Option WorkflowState :=
  if state.status ≠ .running then none
  else if state.cancelFlag then some (dag.cancelPass state launch)
  else dag.progressPass state launch

inductive Event where
  | managerPass (launch : NodeId → Launch)
  /-- `cancel` of the workflow job; it has a task id and keeps its status. -/
  | cancelWorkflow
  /-- The unfinished job of a node gets a new status, task id or cancel flag. -/
  | updateJob (node : NodeId) (job : UnifiedJob)
  /-- `on_delete=SET_NULL` in every node that uses the template. -/
  | deleteTemplate (template : TemplateId)

def updateJob (rows : NodeStates) (node : NodeId) (job : UnifiedJob) :
    Option NodeStates :=
  match (rows node).job with
  | none => none
  | some old =>
      if old.status.Active then
        some (Function.update rows node { rows node with job := some job })
      else none

def deleteTemplate (rows : NodeStates) (template : TemplateId) : NodeStates :=
  fun node =>
    if (rows node).unifiedJobTemplate = some template then
      { rows node with unifiedJobTemplate := none }
    else rows node

def step (dag : WorkflowDAG) (state : WorkflowState) :
    Event → Option WorkflowState
  | .managerPass launch => dag.managerPass state launch
  | .cancelWorkflow => some { state with cancelFlag := true }
  | .updateJob node job =>
      (updateJob state.nodes node job).map fun nodes => { state with nodes := nodes }
  | .deleteTemplate template =>
      some { state with nodes := deleteTemplate state.nodes template }

/-! ## What each step does to the rows -/

variable {dag : WorkflowDAG} {rows memory : NodeStates} {node : NodeId}

theorem job_deleteTemplate (template : TemplateId) :
    (deleteTemplate rows template node).job = (rows node).job := by
  unfold deleteTemplate
  split <;> rfl

theorem doNotRun_deleteTemplate (template : TemplateId) :
    (deleteTemplate rows template node).doNotRun = (rows node).doNotRun := by
  unfold deleteTemplate
  split <;> rfl

@[simp]
theorem cancelFlag_cancelPass {state : WorkflowState} {launch : NodeId → Launch} :
    (dag.cancelPass state launch).cancelFlag = state.cancelFlag := by
  simp only [cancelPass]
  split <;> rfl

theorem saveSpawned_of_not_mem {launch : NodeId → Launch}
    {spawnNodes : List NodeId} (hmem : node ∉ spawnNodes) :
    saveSpawned memory launch spawnNodes rows node = rows node := by
  induction spawnNodes generalizing rows with
  | nil => rfl
  | cons head spawnNodes ih =>
    simp only [List.mem_cons, not_or] at hmem
    rw [saveSpawned, List.foldl_cons, ← saveSpawned, ih hmem.2]
    split
    · rfl
    · rw [Function.update_of_ne hmem.1]

theorem saveSpawned_of_mem {launch : NodeId → Launch}
    {spawnNodes : List NodeId} (hmem : node ∈ spawnNodes)
    (htemplate : (memory node).unifiedJobTemplate ≠ none) :
    saveSpawned memory launch spawnNodes rows node =
      { memory node with job := some (launch node).job } := by
  induction spawnNodes generalizing rows with
  | nil => exact absurd hmem List.not_mem_nil
  | cons head spawnNodes ih =>
    rw [saveSpawned, List.foldl_cons, ← saveSpawned]
    by_cases hlater : node ∈ spawnNodes
    · exact ih hlater
    · have hhead : node = head := (List.mem_cons.mp hmem).resolve_right hlater
      rw [saveSpawned_of_not_mem hlater, ← hhead, if_neg htemplate,
        Function.update_self]

theorem template_of_mem_bfs (hmem : node ∈ dag.bfsNodesToRun memory) :
    (memory node).unifiedJobTemplate ≠ none ∧ (memory node).job = none ∧
      (memory node).doNotRun = false := by
  obtain ⟨hkeep, hjob, htemplate, -⟩ :=
    isRunnable_iff.mp (mem_bfsNodesToRun_iff.mp hmem).1
  exact ⟨htemplate, hjob, hkeep⟩

theorem saveSpawned_bfs {launch : NodeId → Launch} :
    saveSpawned memory launch (dag.bfsNodesToRun memory) rows node =
      if node ∈ dag.bfsNodesToRun memory then
        { memory node with job := some (launch node).job }
      else rows node := by
  split
  · rename_i hmem
    exact saveSpawned_of_mem hmem (template_of_mem_bfs hmem).1
  · rename_i hmem
    exact saveSpawned_of_not_mem hmem

theorem updateJob_eq_some_iff {job : UnifiedJob} {rows' : NodeStates} :
    updateJob rows node job = some rows' ↔
      ∃ old, (rows node).job = some old ∧ old.status.Active ∧
        rows' = Function.update rows node { rows node with job := some job } := by
  unfold updateJob
  cases hjob : (rows node).job with
  | none => simp
  | some old =>
    by_cases hactive : old.status.Active
    · simp [hactive, eq_comm]
    · simp [hactive]

end WorkflowDAG

end Forail.DagWorkflow
