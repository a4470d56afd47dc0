import Forail.Scheduler.WorkflowManager

/-!
# Canceling a workflow

A pass that sees `cancel_flag` marks the rows of all nodes without a job, but
the graph it then walks was built before, and still holds the old flags.  When
a job of the workflow is unfinished the pass goes on to the walk, and a node
that is ready there gets a job after the cancel.  This module states exactly
when that happens; later passes read the new rows and start nothing.
-/

namespace Forail.DagWorkflow

open Relation
open Forail.SimpleDag Forail.UnifiedJobs Forail.Runs

def canceledNodes (dag : WorkflowDAG) (states : NodeStates) : NodeStates :=
  fun node =>
    if node ∈ dag.nodes then
      { states node with job := (states node).job.map UnifiedJob.cancel }
    else states node

/-- The node waits for a job, its parents allow it to start, and opened edges
lead to it from a root. -/
def Ready (dag : WorkflowDAG) (states : NodeStates) (node : NodeId) : Prop :=
  dag.isRunnable states node = true ∧
    ∃ root ∈ dag.getRootNodes, ReflTransGen (LetsRun dag states) root node

/-- After a pass on `state` that ended in `state'`, the nodes that had no job
get none and are marked, at once and in every later state. -/
def StopsSpawning (dag : WorkflowDAG) (state state' : WorkflowState) : Prop :=
  ∀ later, Run dag.step (fun _ _ => True) state' later →
    ∀ node ∈ dag.nodes, (state.nodes node).job = none →
      (later.nodes node).job = none ∧ (later.nodes node).doNotRun = true

def Quiet (dag : WorkflowDAG) (states : NodeStates) : Prop :=
  ∀ node ∈ dag.nodes, (states node).job = none → (states node).doNotRun = true

variable {dag : WorkflowDAG} {states states' : NodeStates} {node : NodeId}

theorem UnifiedJob.cancel_of_not_active {job : UnifiedJob}
    (hended : ¬ job.status.Active) : job.cancel = job := by
  simp [UnifiedJob.cancel, UnifiedJob.canCancel, hended]

theorem job_canceledNodes_eq_none_iff :
    (canceledNodes dag states node).job = none ↔ (states node).job = none := by
  unfold canceledNodes
  split
  · exact Option.map_eq_none_iff
  · exact Iff.rfl

theorem doNotRun_canceledNodes :
    (canceledNodes dag states node).doNotRun = (states node).doNotRun := by
  unfold canceledNodes
  split <;> rfl

def cancelNodeJob (acc : Bool × NodeStates) (node : NodeId) : Bool × NodeStates :=
  match (acc.2 node).job with
  | none => acc
  | some job =>
      if job.canCancel then
        (false, Function.update acc.2 node { acc.2 node with job := some job.cancel })
      else acc

theorem foldl_cancelNodeJob {nodes : List NodeId} {finished : Bool} (hnodup : nodes.Nodup) :
    nodes.foldl cancelNodeJob (finished, states) =
      (finished && decide (∀ node ∈ nodes, ∀ job ∈ (states node).job, ¬ job.status.Active),
        fun node =>
          if node ∈ nodes then
            { states node with job := (states node).job.map UnifiedJob.cancel }
          else states node) := by
  induction nodes generalizing finished states with
  | nil => simp
  | cons head nodes ih =>
    obtain ⟨hhead, hnodup⟩ := List.nodup_cons.mp hnodup
    have hself : (states head).job.map UnifiedJob.cancel = (states head).job →
        { states head with job := (states head).job.map UnifiedJob.cancel } =
          states head := by
      intro hsame
      rw [hsame]
    rw [List.foldl_cons, cancelNodeJob]
    cases hjob : (states head).job with
    | none =>
      simp only
      rw [ih hnodup]
      apply Prod.ext
      · simp [hjob]
      · funext node
        by_cases hnode : node = head
        · subst hnode
          simp only [if_neg hhead, if_pos List.mem_cons_self]
          exact (hself (by rw [hjob]; rfl)).symm
        · simp [hnode]
    | some job =>
      simp only
      by_cases hactive : job.status.Active
      · have hcancel : job.canCancel = true := by
          simp [UnifiedJob.canCancel, hactive]
        rw [if_pos hcancel, ih hnodup]
        apply Prod.ext
        · simp [hjob, hactive]
        · funext node
          by_cases hnode : node = head
          · simp [hnode, hhead, hjob]
          · simp [hnode]
      · have hcancel : job.canCancel = false := by
          simp [UnifiedJob.canCancel, hactive]
        rw [if_neg (by simp [hcancel]), ih hnodup]
        apply Prod.ext
        · simp [hjob, hactive]
        · funext node
          by_cases hnode : node = head
          · subst hnode
            simp only [if_neg hhead, if_pos List.mem_cons_self]
            apply (hself _).symm
            rw [hjob, Option.map_some, UnifiedJob.cancel_of_not_active hactive]
          · simp [hnode]

/-- `cancel_node_jobs` cancels the jobs of all nodes, and answers whether none
of them was unfinished. -/
theorem cancelNodeJobs_eq : dag.cancelNodeJobs states =
    (decide (NoActiveJob dag states), canceledNodes dag states) := by
  have hloop : dag.cancelNodeJobs states = dag.nodes.foldl cancelNodeJob (true, states) := rfl
  rw [hloop, foldl_cancelNodeJob dag.nodes_nodup, Bool.true_and]
  rfl

def canceledRows (dag : WorkflowDAG) (states : NodeStates) : NodeStates :=
  fun node =>
    { dag.markRows states node with job := (canceledNodes dag states node).job }

theorem nodes_cancelPass {state : WorkflowState} {launch : NodeId → Launch} :
    (dag.cancelPass state launch).nodes =
      if NoActiveJob dag state.nodes then canceledRows dag state.nodes
      else
        WorkflowDAG.saveSpawned (canceledNodes dag state.nodes) launch
          (dag.bfsNodesToRun (canceledNodes dag state.nodes))
          (canceledRows dag state.nodes) := by
  simp only [WorkflowDAG.cancelPass, cancelNodeJobs_eq, decide_eq_true_eq]
  split <;> rfl

theorem quiet_canceledRows : Quiet dag (canceledRows dag states) := by
  intro node hmem hjob
  have hnone : (states node).job = none := job_canceledNodes_eq_none_iff.mp hjob
  simp only [canceledRows, WorkflowDAG.markRows, hmem, hnone, true_and, and_true]
  split
  · rfl
  · rename_i hflag
    simpa using hflag

theorem mem_bfs_iff_ready :
    node ∈ dag.bfsNodesToRun states ↔ Ready dag states node :=
  WorkflowDAG.mem_bfsNodesToRun_iff

theorem Ready.mem_nodes (hready : Ready dag states node) : node ∈ dag.nodes := by
  obtain ⟨-, root, hroot, hpath⟩ := hready
  cases ReflTransGen.cases_tail hpath with
  | inl hself => exact hself ▸ (SimpleDAG.mem_getRootNodes_iff.mp hroot).1
  | inr hlast =>
    obtain ⟨_, -, hlets⟩ := hlast
    exact hlets.edge.child_mem

theorem Quiet.not_ready (hquiet : Quiet dag states) :
    ¬ Ready dag (canceledNodes dag states) node := by
  intro hready
  obtain ⟨hkeep, hjob, -⟩ := WorkflowDAG.isRunnable_iff.mp hready.1
  rw [doNotRun_canceledNodes] at hkeep
  rw [job_canceledNodes_eq_none_iff] at hjob
  have hmarked := hquiet node hready.mem_nodes hjob
  simp [hkeep] at hmarked

theorem bfs_eq_nil_iff : dag.bfsNodesToRun states = [] ↔
    ∀ node, ¬ Ready dag states node := by
  rw [List.eq_nil_iff_forall_not_mem]
  exact forall_congr' fun node => not_congr mem_bfs_iff_ready

theorem nodes_cancelPass_of_not_ready {state : WorkflowState}
    {launch : NodeId → Launch}
    (hnone : NoActiveJob dag state.nodes ∨
      ∀ node, ¬ Ready dag (canceledNodes dag state.nodes) node) :
    (dag.cancelPass state launch).nodes = canceledRows dag state.nodes := by
  rw [nodes_cancelPass]
  split
  · rfl
  · rename_i hactive
    rw [bfs_eq_nil_iff.mpr (hnone.resolve_left hactive)]
    rfl

/-! ## Runs after the cancel -/

/-- The invariant of every run after a pass that started nothing. -/
structure Stopped (dag : WorkflowDAG) (first : NodeStates)
    (state : WorkflowState) : Prop where
  canceled : state.cancelFlag = true
  quiet : Quiet dag state.nodes
  no_job : ∀ node ∈ dag.nodes, (first node).job = none →
    (state.nodes node).job = none

theorem Stopped.step {first : NodeStates} {state state' : WorkflowState}
    {event : WorkflowDAG.Event} (hstopped : Stopped dag first state)
    (hstep : dag.step state event = some state') : Stopped dag first state' := by
  cases event with
  | managerPass launch =>
    simp only [WorkflowDAG.step, WorkflowDAG.managerPass] at hstep
    split at hstep
    · cases hstep
    · rw [if_pos hstopped.canceled, Option.some.injEq] at hstep
      have hnodes : state'.nodes = canceledRows dag state.nodes := by
        rw [← hstep]
        exact nodes_cancelPass_of_not_ready
          (Or.inr fun node => hstopped.quiet.not_ready)
      exact
        { canceled := by
            rw [← hstep, WorkflowDAG.cancelFlag_cancelPass, hstopped.canceled]
          quiet := hnodes ▸ quiet_canceledRows
          no_job := by
            intro node hmem hfirst
            rw [hnodes]
            exact job_canceledNodes_eq_none_iff.mpr (hstopped.no_job node hmem hfirst) }
  | cancelWorkflow =>
    simp only [WorkflowDAG.step, Option.some.injEq] at hstep
    subst hstep
    exact
      { canceled := rfl
        quiet := hstopped.quiet
        no_job := hstopped.no_job }
  | updateJob node job =>
    obtain ⟨nodes, hnodes, rfl⟩ := Option.map_eq_some_iff.mp hstep
    obtain ⟨old, hold, -, rfl⟩ := WorkflowDAG.updateJob_eq_some_iff.mp hnodes
    have hother : ∀ x, (state.nodes x).job = none → x ≠ node := by
      intro x hx heq
      rw [heq, hold] at hx
      cases hx
    exact
      { canceled := hstopped.canceled
        quiet := by
          intro x hmem hjob
          by_cases hx : x = node
          · simp [hx] at hjob
          · simp only [Function.update_of_ne hx] at hjob ⊢
            exact hstopped.quiet x hmem hjob
        no_job := by
          intro x hmem hfirst
          have hjob := hstopped.no_job x hmem hfirst
          simpa only [Function.update_of_ne (hother x hjob)] using hjob }
  | deleteTemplate template =>
    simp only [WorkflowDAG.step, Option.some.injEq] at hstep
    subst hstep
    exact
      { canceled := hstopped.canceled
        quiet := by
          intro x hmem hnone
          rw [WorkflowDAG.job_deleteTemplate] at hnone
          rw [WorkflowDAG.doNotRun_deleteTemplate]
          exact hstopped.quiet x hmem hnone
        no_job := by
          intro x hmem hfirst
          rw [WorkflowDAG.job_deleteTemplate]
          exact hstopped.no_job x hmem hfirst }

/-- A pass that sees the cancel flag stops the spawning, then and later, exactly
when no job of the workflow is unfinished, or no node is ready once the
unfinished jobs are asked to cancel. -/
theorem stopsSpawning_iff {state state' : WorkflowState} {launch : NodeId → Launch}
    (hcancel : state.cancelFlag = true)
    (hpass : dag.managerPass state launch = some state') :
    StopsSpawning dag state state' ↔
      NoActiveJob dag state.nodes ∨
        ∀ node, ¬ Ready dag (canceledNodes dag state.nodes) node := by
  have hstate : dag.cancelPass state launch = state' := by
    simp only [WorkflowDAG.managerPass, hcancel, if_true] at hpass
    split at hpass
    · cases hpass
    · exact Option.some.inj hpass
  constructor
  · intro hstops
    by_contra hclaim
    simp only [not_or, not_forall, not_not] at hclaim
    obtain ⟨hactive, node, hready⟩ := hclaim
    obtain ⟨-, hjob, -⟩ := WorkflowDAG.isRunnable_iff.mp hready.1
    rw [job_canceledNodes_eq_none_iff] at hjob
    have hnone := (hstops state' .start node hready.mem_nodes hjob).1
    rw [← hstate, nodes_cancelPass, if_neg hactive, WorkflowDAG.saveSpawned_bfs,
      if_pos (mem_bfs_iff_ready.mpr hready)] at hnone
    cases hnone
  · intro hnone later hrun node hmem hfirst
    have hnodes : state'.nodes = canceledRows dag state.nodes := by
      rw [← hstate]
      exact nodes_cancelPass_of_not_ready hnone
    have hstopped : Stopped dag state.nodes state' :=
      { canceled := by rw [← hstate, WorkflowDAG.cancelFlag_cancelPass, hcancel]
        quiet := hnodes ▸ quiet_canceledRows
        no_job := by
          intro x _ hx
          rw [hnodes]
          exact job_canceledNodes_eq_none_iff.mpr hx }
    have hlater := Run.invariant (Stopped dag state.nodes) hstopped
      (fun _ _ _ hstopped _ hstep => hstopped.step hstep) hrun
    have hjob := hlater.no_job node hmem hfirst
    exact ⟨hjob, hlater.quiet node hmem hjob⟩

def failurePair : WorkflowDAG := WorkflowDAG.ofTables [0, 1] [] [(0, 1)] []

theorem stopsSpawning_pair :
    StopsSpawning failurePair { startedState false with cancelFlag := true }
      (failurePair.cancelPass { startedState false with cancelFlag := true } launchAll) :=
  (stopsSpawning_iff rfl rfl).mpr (Or.inl (by decide))

/-- The job of the first node is pending when the workflow is canceled: the pass
cancels it on the spot and starts the second node. -/
theorem spawned_after_cancel :
    ¬ ∀ (dag : WorkflowDAG) (start state state' : WorkflowState)
      (launch : NodeId → Launch), start.Started →
      Run dag.step (fun _ _ => True) start state → state.cancelFlag = true →
      dag.managerPass state launch = some state' → StopsSpawning dag state state' := by
  intro hclaim
  have hspawned : ([WorkflowDAG.Event.managerPass launchAll,
        .cancelWorkflow].foldlM failurePair.step (startedState false)).any (fun state =>
          state.cancelFlag && decide ((state.nodes 1).job = none) &&
            (failurePair.managerPass state launchAll).any fun state' =>
              !decide ((state'.nodes 1).job = none)) = true := by decide
  obtain ⟨state, hrun, hstate⟩ := exists_run_of_any _ hspawned
  simp only [Bool.and_eq_true, decide_eq_true_eq] at hstate
  obtain ⟨⟨hcancel, hnone⟩, hpass⟩ := hstate
  obtain ⟨state', hpass, hjob⟩ := Option.any_eq_true .. |>.mp hpass
  have hstops := hclaim failurePair (startedState false) state state' launchAll
    (started_startedState false) hrun hcancel hpass state' .start 1 (by decide) hnone
  simp [hstops.1] at hjob

end Forail.DagWorkflow
