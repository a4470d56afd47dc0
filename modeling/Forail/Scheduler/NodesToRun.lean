import Mathlib.Algebra.GroupWithZero.Nat
import Mathlib.Algebra.Order.BigOperators.Group.Finset
import Forail.Core.Worklist
import Forail.Scheduler.DagWorkflow

/-!
# The nodes a workflow starts next

`bfs_nodes_to_run` walks from the roots along the edges that the ended parents
open, and picks the nodes that wait for a job and whose parents allow it.
This module states what the walk finds, and compares an ALL-convergence node
that it picks with the meaning of ALL convergence: every parent has met one of
its edges into the node.
-/

namespace Forail.DagWorkflow

open Relation
open Forail.SimpleDag Forail.UnifiedJobs

inductive LetsRun (dag : WorkflowDAG) (states : NodeStates)
    (parent child : NodeId) : Prop where
  | successful (job : UnifiedJob) (hkeep : (states parent).doNotRun = false)
      (hjob : (states parent).job = some job) (hstatus : job.status = .successful)
      (hpath : child ∈ dag.successPath parent)
  | unsuccessful (job : UnifiedJob) (hkeep : (states parent).doNotRun = false)
      (hjob : (states parent).job = some job) (hstatus : job.status.Unsuccessful)
      (hpath : child ∈ dag.failurePath parent)
  | missing (hkeep : (states parent).doNotRun = false)
      (hjob : (states parent).job = none)
      (htemplate : (states parent).unifiedJobTemplate = none)
      (hpath : child ∈ dag.failurePath parent)

namespace WorkflowDAG

variable (dag : WorkflowDAG) (states : NodeStates)

def nextNodes (node : NodeId) : List NodeId :=
  if (states node).doNotRun then []
  else
    match (states node).job with
    | some job =>
        if job.status ∈ [.failed, .error, .canceled] then dag.failurePath node
        else if job.status = .successful then dag.successPath node
        else []
    | none =>
        if (states node).unifiedJobTemplate = none then dag.failurePath node else []

def isRunnable (node : NodeId) : Bool :=
  !(states node).doNotRun && (states node).job.isNone &&
    (states node).unifiedJobTemplate.isSome &&
    dag.areRelevantParentsFinished states node &&
    (!(states node).allParentsMustConverge ||
      dag.allParentsMetConvergenceCriteria states node)

variable {dag states} {parent child node : NodeId}

theorem mem_successPath_iff : child ∈ dag.successPath parent ↔
    child ∈ dag.getChildrenByLabel parent .successNodes ∨
      child ∈ dag.getChildrenByLabel parent .alwaysNodes := List.mem_append

theorem mem_failurePath_iff : child ∈ dag.failurePath parent ↔
    child ∈ dag.getChildrenByLabel parent .failureNodes ∨
      child ∈ dag.getChildrenByLabel parent .alwaysNodes := List.mem_append

theorem edge_of_mem_successPath (hmem : child ∈ dag.successPath parent) :
    dag.Edge parent child := by
  cases mem_successPath_iff.mp hmem with
  | inl hlabel => exact ⟨_, hlabel⟩
  | inr hlabel => exact ⟨_, hlabel⟩

theorem edge_of_mem_failurePath (hmem : child ∈ dag.failurePath parent) :
    dag.Edge parent child := by
  cases mem_failurePath_iff.mp hmem with
  | inl hlabel => exact ⟨_, hlabel⟩
  | inr hlabel => exact ⟨_, hlabel⟩

end WorkflowDAG

theorem LetsRun.edge {dag : WorkflowDAG} {states : NodeStates}
    {parent child : NodeId} (hlets : LetsRun dag states parent child) :
    dag.Edge parent child := by
  cases hlets with
  | successful job _ _ _ hpath => exact WorkflowDAG.edge_of_mem_successPath hpath
  | unsuccessful job _ _ _ hpath => exact WorkflowDAG.edge_of_mem_failurePath hpath
  | missing _ _ _ hpath => exact WorkflowDAG.edge_of_mem_failurePath hpath

theorem LetsRun.keep {dag : WorkflowDAG} {states : NodeStates}
    {parent child : NodeId} (hlets : LetsRun dag states parent child) :
    (states parent).doNotRun = false := by
  cases hlets <;> assumption

namespace WorkflowDAG

variable {dag : WorkflowDAG} {states : NodeStates} {parent child node : NodeId}

theorem mem_nextNodes_iff : child ∈ dag.nextNodes states parent ↔
    LetsRun dag states parent child := by
  constructor
  · intro hmem
    simp only [nextNodes] at hmem
    split at hmem
    · exact absurd hmem List.not_mem_nil
    · rename_i hkeep
      have hkeep : (states parent).doNotRun = false := by simpa using hkeep
      split at hmem
      · rename_i job hjob
        split at hmem
        · rename_i hstatus
          exact .unsuccessful job hkeep hjob hstatus hmem
        · split at hmem
          · rename_i hstatus
            exact .successful job hkeep hjob hstatus hmem
          · exact absurd hmem List.not_mem_nil
      · rename_i hjob
        split at hmem
        · rename_i htemplate
          exact .missing hkeep hjob htemplate hmem
        · exact absurd hmem List.not_mem_nil
  · intro hlets
    cases hlets with
    | successful job hkeep hjob hstatus hpath =>
      simp [nextNodes, hkeep, hjob, hstatus, hpath]
    | unsuccessful job hkeep hjob hstatus hpath =>
      have hstatus : job.status ∈ [JobStatus.failed, .error, .canceled] := hstatus
      simp only [nextNodes, hkeep, hjob, if_pos hstatus]
      simpa using hpath
    | missing hkeep hjob htemplate hpath =>
      simp [nextNodes, hkeep, hjob, htemplate, hpath]

instance : Decidable (LetsRun dag states parent child) :=
  decidable_of_iff _ mem_nextNodes_iff

theorem bfsLoop_cons {fuel : ℕ} {nodes visited found : List NodeId}
    (hfresh : node ∉ visited) :
    dag.bfsLoop states (fuel + 1) (node :: nodes) visited found =
      dag.bfsLoop states fuel (nodes ++ dag.nextNodes states node)
        (visited ++ [node])
        (if dag.isRunnable states node then found ++ [node] else found) := by
  rw [bfsLoop, if_neg hfresh]
  by_cases hdrop : (states node).doNotRun = true
  · simp [nextNodes, isRunnable, hdrop]
  · cases hjob : (states node).job with
    | some job =>
      by_cases hfailed : job.status ∈ [JobStatus.failed, .error, .canceled]
      · simp only [nextNodes, isRunnable, hdrop, hjob, if_pos hfailed]
        simp
      · by_cases hsuccess : job.status = .successful
        · simp [nextNodes, isRunnable, hdrop, hjob, hsuccess]
        · simp only [nextNodes, isRunnable, hdrop, hjob, if_neg hfailed,
            if_neg hsuccess]
          simp
    | none =>
      by_cases htemplate : (states node).unifiedJobTemplate = none
      · simp [nextNodes, isRunnable, hdrop, hjob, htemplate]
      · have hsome : (states node).unifiedJobTemplate.isSome = true := by
          simpa [Option.isSome_iff_ne_none] using htemplate
        simp only [nextNodes, isRunnable, hdrop, hjob, htemplate, hsome]
        cases (states node).allParentsMustConverge <;>
          cases dag.areRelevantParentsFinished states node <;>
          cases dag.allParentsMetConvergenceCriteria states node <;> simp

theorem bfsLoop_eq_filter {fuel : ℕ} {nodes visited : List NodeId} :
    dag.bfsLoop states fuel nodes visited
        (visited.filter (dag.isRunnable states)) =
      (Worklist.traverse (dag.nextNodes states) fuel nodes visited).filter
        (dag.isRunnable states) := by
  induction fuel generalizing nodes visited with
  | zero => rfl
  | succ fuel ih =>
    cases nodes with
    | nil => rfl
    | cons node nodes =>
      rw [Worklist.traverse]
      by_cases hseen : node ∈ visited
      · rw [bfsLoop, if_pos hseen, if_pos hseen, ih]
      · rw [bfsLoop_cons hseen, if_neg hseen, ← ih]
        congr 1
        by_cases hrun : dag.isRunnable states node = true
        · simp [List.filter_append, hrun]
        · simp [List.filter_append, hrun]

theorem length_nextNodes_le : (dag.nextNodes states node).length ≤
    (dag.failurePath node).length + (dag.successPath node).length := by
  simp only [nextNodes]
  split
  · simp
  · split
    · split
      · omega
      · split
        · omega
        · simp
    · split
      · omega
      · simp

theorem cost_le_bfsFuel :
    Worklist.cost (dag.nextNodes states) dag.nodes.toFinset dag.getRootNodes [] ≤
      dag.bfsFuel := by
  simp only [Worklist.cost, bfsFuel, List.not_mem_nil, not_false_eq_true,
    Finset.filter_true]
  rw [← List.sum_toFinset _ dag.nodes_nodup]
  apply Nat.add_le_add_left
  apply Finset.sum_le_sum
  intro node _
  exact length_nextNodes_le

theorem mem_bfsNodesToRun_iff : node ∈ dag.bfsNodesToRun states ↔
    dag.isRunnable states node = true ∧
      ∃ root ∈ dag.getRootNodes, ReflTransGen (LetsRun dag states) root node := by
  have hnext : (fun x y => y ∈ dag.nextNodes states x) = LetsRun dag states := by
    funext x y
    exact propext mem_nextNodes_iff
  have hfound : dag.bfsNodesToRun states =
      (Worklist.traverse (dag.nextNodes states) dag.bfsFuel dag.getRootNodes
        []).filter (dag.isRunnable states) := bfsLoop_eq_filter
  have hclosed : ∀ x ∈ dag.nodes.toFinset, ∀ y ∈ dag.nextNodes states x,
      y ∈ dag.nodes.toFinset := by
    intro x _ y hy
    exact List.mem_toFinset.mpr (mem_nextNodes_iff.mp hy).edge.child_mem
  have hroots : ∀ x ∈ dag.getRootNodes, x ∈ dag.nodes.toFinset := by
    intro x hx
    exact List.mem_toFinset.mpr (SimpleDAG.mem_getRootNodes_iff.mp hx).1
  rw [hfound, List.mem_filter,
    Worklist.mem_traverse_iff dag.nodes.toFinset hclosed hroots cost_le_bfsFuel,
    hnext, and_comm]

theorem areRelevantParentsFinished_iff :
    dag.areRelevantParentsFinished states node = true ↔
      ∀ p, dag.Edge p node → (states p).doNotRun = true ∨
        (states p).unifiedJobTemplate = none ∨
        ∃ job, (states p).job = some job ∧ ¬ job.status.Active := by
  simp only [areRelevantParentsFinished, List.all_eq_true,
    SimpleDAG.mem_getParents_iff]
  refine forall_congr' fun p => imp_congr_right fun _ => ?_
  by_cases hdrop : (states p).doNotRun = true
  · simp [hdrop]
  · by_cases htemplate : (states p).unifiedJobTemplate = none
    · simp [htemplate]
    · cases hjob : (states p).job with
      | none => simp [hdrop, htemplate]
      | some job =>
        obtain ⟨status, taskId, flag⟩ := job
        cases status <;> simp [hdrop, htemplate, JobStatus.Active]

theorem allParentsMetConvergenceCriteria_iff :
    dag.allParentsMetConvergenceCriteria states node = true ↔
      ∀ p, dag.Edge p node → ∀ job, (states p).job = some job →
        (job.status = .successful → node ∈ dag.successPath p) ∧
          (job.status = .failed → node ∈ dag.failurePath p) := by
  simp only [allParentsMetConvergenceCriteria, List.all_eq_true,
    SimpleDAG.mem_getParents_iff]
  refine forall_congr' fun p => imp_congr_right fun _ => ?_
  cases hjob : (states p).job with
  | none => simp
  | some job =>
    obtain ⟨status, taskId, flag⟩ := job
    cases status <;>
      simp [mem_successPath_iff, mem_failurePath_iff,
        SimpleDAG.mem_getParentsByLabel_iff]

theorem isRunnable_iff : dag.isRunnable states node = true ↔
    (states node).doNotRun = false ∧ (states node).job = none ∧
      (states node).unifiedJobTemplate ≠ none ∧
      dag.areRelevantParentsFinished states node = true ∧
      ((states node).allParentsMustConverge = true →
        dag.allParentsMetConvergenceCriteria states node = true) := by
  simp only [isRunnable, Bool.and_eq_true, Bool.not_eq_eq_eq_not, Bool.not_true,
    Option.isNone_iff_eq_none, Option.isSome_iff_ne_none, Bool.or_eq_true, and_assoc]
  cases (states node).allParentsMustConverge <;> simp

end WorkflowDAG

/-! ## ALL convergence -/

variable {dag : WorkflowDAG} {states : NodeStates} {parent node : NodeId}

/-- A parent that the convergence test counts as finished and met without
looking for a matching edge: its job ended in `error` or `canceled`, or it has
neither a job nor a template. -/
def EndedUnchecked (states : NodeStates) (parent : NodeId) : Prop :=
  match (states parent).job with
  | some job => job.status ∈ [.error, .canceled]
  | none => (states parent).unifiedJobTemplate = none

instance : Decidable (EndedUnchecked states parent) := by
  unfold EndedUnchecked
  split <;> infer_instance

/-- What the convergence test leaves open for a parent: it is not marked
`do_not_run`, a parent without a template has no unfinished job, and a parent
that ended unchecked has a failure or always edge into the node. -/
structure ConvergenceGap (dag : WorkflowDAG) (states : NodeStates)
    (parent node : NodeId) : Prop where
  keep : (states parent).doNotRun = false
  templateless_finished : (states parent).unifiedJobTemplate = none →
    ∀ job, (states parent).job = some job → ¬ job.status.Active
  unchecked_edge : EndedUnchecked states parent → node ∈ dag.failurePath parent

theorem LetsRun.convergenceGap (hlets : LetsRun dag states parent node) :
    ConvergenceGap dag states parent node := by
  cases hlets with
  | successful job hkeep hjob hstatus hpath =>
    exact
      { keep := hkeep
        templateless_finished := by
          intro _ other hother
          rw [hjob, Option.some.injEq] at hother
          rw [← hother, hstatus]
          exact JobStatus.not_active_successful
        unchecked_edge := by
          simp [EndedUnchecked, hjob, hstatus] }
  | unsuccessful job hkeep hjob hstatus hpath =>
    exact
      { keep := hkeep
        templateless_finished := by
          intro _ other hother
          rw [hjob, Option.some.injEq] at hother
          rw [← hother]
          exact hstatus.not_active
        unchecked_edge := fun _ => hpath }
  | missing hkeep hjob htemplate hpath =>
    exact
      { keep := hkeep
        templateless_finished := by simp [hjob]
        unchecked_edge := fun _ => hpath }

theorem ConvergenceGap.letsRun (hgap : ConvergenceGap dag states parent node)
    (hedge : dag.Edge parent node)
    (hfinished : dag.areRelevantParentsFinished states node = true)
    (hmet : dag.allParentsMetConvergenceCriteria states node = true) :
    LetsRun dag states parent node := by
  have hparent := WorkflowDAG.areRelevantParentsFinished_iff.mp hfinished parent hedge
  cases hjob : (states parent).job with
  | none =>
    have htemplate : (states parent).unifiedJobTemplate = none := by
      simpa [hgap.keep, hjob] using hparent
    exact .missing hgap.keep hjob htemplate
      (hgap.unchecked_edge (by simp [EndedUnchecked, hjob, htemplate]))
  | some job =>
    have hended : ¬ job.status.Active := by
      by_cases htemplate : (states parent).unifiedJobTemplate = none
      · exact hgap.templateless_finished htemplate job hjob
      · simpa [hgap.keep, hjob, htemplate] using hparent
    obtain ⟨hsuccess, hfailure⟩ :=
      WorkflowDAG.allParentsMetConvergenceCriteria_iff.mp hmet parent hedge job hjob
    rcases job.status.active_or_successful_or_unsuccessful with
      hactive | hsuccessful | hunsuccessful
    · exact absurd hactive hended
    · exact .successful job hgap.keep hjob hsuccessful (hsuccess hsuccessful)
    · refine .unsuccessful job hgap.keep hjob hunsuccessful ?_
      by_cases hfailed : job.status = .failed
      · exact hfailure hfailed
      · apply hgap.unchecked_edge
        simp only [JobStatus.Unsuccessful, List.mem_cons, hfailed, false_or] at hunsuccessful
        simpa [EndedUnchecked, hjob] using hunsuccessful

/-- An ALL-convergence node chosen by `bfs_nodes_to_run` has only parents that
met one of their edges into it, exactly when no parent falls into the gap of
the convergence test. -/
theorem allConvergence_parents_met_iff
    (hrun : node ∈ dag.bfsNodesToRun states)
    (hall : (states node).allParentsMustConverge = true) :
    (node ∈ dag.getRootNodes ∨
        ∀ p ∈ dag.getParents node, LetsRun dag states p node) ↔
      ∀ p ∈ dag.getParents node, ConvergenceGap dag states p node := by
  obtain ⟨-, -, -, hfinished, hmet⟩ :=
    WorkflowDAG.isRunnable_iff.mp (WorkflowDAG.mem_bfsNodesToRun_iff.mp hrun).1
  constructor
  · intro hclaim p hp
    cases hclaim with
    | inl hroot =>
      have hedge := SimpleDAG.mem_getParents_iff.mp hp
      exact absurd hedge ((SimpleDAG.mem_getRootNodes_iff.mp hroot).2 p)
    | inr hparents => exact (hparents p hp).convergenceGap
  · intro hgap
    refine Or.inr fun p hp => ?_
    exact (hgap p hp).letsRun (SimpleDAG.mem_getParents_iff.mp hp) hfinished
      (hmet hall)

def successJoin : WorkflowDAG := WorkflowDAG.ofTables [0, 1, 2] [(0, 2), (1, 2)] [] []

def joinStates (first second : JobStatus) : NodeStates := fun node =>
  { doNotRun := false
    job :=
      if node = 2 then none
      else
        some
          { status := if node = 0 then first else second
            celeryTaskId := "task"
            cancelFlag := false }
    unifiedJobTemplate := some node
    allParentsMustConverge := node = 2 }

theorem allConvergence_join :
    2 ∈ successJoin.getRootNodes ∨ ∀ p ∈ successJoin.getParents 2,
      LetsRun successJoin (joinStates .successful .successful) p 2 := by
  apply (allConvergence_parents_met_iff (by decide) (by decide)).mpr
  have hkeep : ∀ p, (joinStates .successful .successful p).doNotRun = false := fun _ => rfl
  intro p hp
  exact
    { keep := hkeep p
      templateless_finished := by simp [joinStates]
      unchecked_edge := by revert p; decide }

theorem join_runs_after_error :
    ∃ node ∈ successJoin.bfsNodesToRun (joinStates .successful .error),
      (joinStates .successful .error node).allParentsMustConverge = true ∧
      ¬ (node ∈ successJoin.getRootNodes ∨ ∀ p ∈ successJoin.getParents node,
        LetsRun successJoin (joinStates .successful .error) p node) :=
  ⟨2, by decide, by decide, by decide⟩

/-! ## The parents of a started node -/

def HasActiveJob (states : NodeStates) (node : NodeId) : Prop :=
  ∃ job, (states node).job = some job ∧ job.status.Active

/-- The node will never run, or its job ended, or there is nothing to run. -/
def Ended (states : NodeStates) (node : NodeId) : Prop :=
  (states node).doNotRun = true ∨
    (∃ job, (states node).job = some job ∧ ¬ job.status.Active) ∨
    ((states node).job = none ∧ (states node).unifiedJobTemplate = none)

def PassedOver (states : NodeStates) (node : NodeId) : Prop :=
  (states node).doNotRun = true ∨ (states node).unifiedJobTemplate = none

instance : Decidable (HasActiveJob states node) := by
  unfold HasActiveJob
  cases (states node).job with
  | none => exact isFalse (by simp)
  | some job => exact decidable_of_iff job.status.Active (by simp)

instance : Decidable (PassedOver states node) := by
  unfold PassedOver
  infer_instance

theorem Ended.of_not_passedOver
    (hfinished : dag.areRelevantParentsFinished states node = true)
    (hedge : dag.Edge parent node) (hlooked : ¬ PassedOver states parent) :
    Ended states parent ∧ ¬ HasActiveJob states parent := by
  have hparent := WorkflowDAG.areRelevantParentsFinished_iff.mp hfinished parent hedge
  rw [PassedOver, not_or] at hlooked
  obtain ⟨job, hjob, hended⟩ := (hparent.resolve_left hlooked.1).resolve_left hlooked.2
  refine ⟨Or.inr (Or.inl ⟨job, hjob, hended⟩), ?_⟩
  rintro ⟨other, hother, hactive⟩
  rw [hjob, Option.some.injEq] at hother
  exact hended (hother ▸ hactive)

theorem Ended.of_passedOver (hpassed : PassedOver states parent)
    (hidle : ¬ HasActiveJob states parent) : Ended states parent := by
  cases hpassed with
  | inl hdrop => exact Or.inl hdrop
  | inr htemplate =>
    cases hjob : (states parent).job with
    | none => exact Or.inr (Or.inr ⟨hjob, htemplate⟩)
    | some job => exact Or.inr (Or.inl ⟨job, hjob, fun hactive => hidle ⟨job, hjob, hactive⟩⟩)

/-- All parents of a node that `bfs_nodes_to_run` returns have ended, exactly
when no parent that the test passes over still has an active job. -/
theorem startedNode_parents_ended_iff (hrun : node ∈ dag.bfsNodesToRun states) :
    (∀ p ∈ dag.getParents node, Ended states p ∧ ¬ HasActiveJob states p) ↔
      ∀ p ∈ dag.getParents node, PassedOver states p → ¬ HasActiveJob states p := by
  obtain ⟨-, -, -, hfinished, -⟩ :=
    WorkflowDAG.isRunnable_iff.mp (WorkflowDAG.mem_bfsNodesToRun_iff.mp hrun).1
  constructor
  · intro hended p hp _
    exact (hended p hp).2
  · intro hidle p hp
    by_cases hpassed : PassedOver states p
    · exact ⟨.of_passedOver hpassed (hidle p hp hpassed), hidle p hp hpassed⟩
    · exact Ended.of_not_passedOver hfinished (SimpleDAG.mem_getParents_iff.mp hp) hpassed

theorem startedNode_parents_join :
    2 ∈ successJoin.bfsNodesToRun (joinStates .successful .successful) ∧
      ∀ p ∈ successJoin.getParents 2,
        Ended (joinStates .successful .successful) p ∧
          ¬ HasActiveJob (joinStates .successful .successful) p := by
  have hstarted : 2 ∈ successJoin.bfsNodesToRun (joinStates .successful .successful) := by decide
  refine ⟨hstarted, (startedNode_parents_ended_iff hstarted).mpr ?_⟩
  decide

/-- The job of `0` succeeded, the template of `1` was deleted while its job
runs, and `2` starts after any of them. -/
def deletedTemplateStates : NodeStates := fun node =>
  { joinStates .successful .running node with
    unifiedJobTemplate := if node = 1 then none else some node
    allParentsMustConverge := false }

theorem startedNode_before_parent :
    ∃ node ∈ successJoin.bfsNodesToRun deletedTemplateStates,
      ¬ ∀ p ∈ successJoin.getParents node,
        Ended deletedTemplateStates p ∧ ¬ HasActiveJob deletedTemplateStates p := by
  refine ⟨2, by decide, ?_⟩
  intro hended
  exact absurd (hended 1 (by decide)).2 (by decide)

end Forail.DagWorkflow
