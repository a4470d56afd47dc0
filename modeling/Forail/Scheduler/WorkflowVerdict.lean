import Forail.Scheduler.DagWorkflow
import Mathlib.Tactic.Push

/-!
# The verdict on a finished workflow

A finished workflow has failed when one of its nodes ended without success and leads
to no child that handles the failure.  `has_workflow_failed` collects such nodes by two
tests, the first of which does not look at the job of a node without a template, and
the second of which does not look at `do_not_run`.
-/

namespace Forail.DagWorkflow.WorkflowDAG

open Forail.UnifiedJobs

variable (dag : WorkflowDAG) (states : NodeStates)

def JobUnsuccessful (node : NodeId) : Prop :=
  ∃ job, (states node).job = some job ∧ job.status.Unsuccessful

def NothingToRun (node : NodeId) : Prop :=
  (states node).job = none ∧ (states node).unifiedJobTemplate = none

/-- The failure of the node is the failure of the workflow. -/
structure FailsWorkflow (node : NodeId) : Prop where
  run : (states node).doNotRun = false
  failed : JobUnsuccessful states node ∨ NothingToRun states node
  unhandled : dag.failurePath node = []

def TemplateDeletedAfterSuccess (node : NodeId) : Prop :=
  (states node).doNotRun = false ∧ (states node).unifiedJobTemplate = none ∧
    ∃ job, (states node).job = some job ∧ job.status = .successful

/-- The node is not to be run, and has a job that ended without success. -/
def NotRunButUnsuccessful (node : NodeId) : Prop :=
  (states node).doNotRun = true ∧ JobUnsuccessful states node

/-- The node is collected as a failed one although it failed nothing. -/
structure WronglyFailed (node : NodeId) : Prop where
  collected : TemplateDeletedAfterSuccess states node ∨ NotRunButUnsuccessful states node
  unhandled : dag.failurePath node = []

variable {dag} {states} {node : NodeId}

theorem unsuccessful_iff {status : JobStatus} :
    status ∈ [.failed, .canceled, .error] ↔ status.Unsuccessful := by
  cases status <;> decide

theorem mem_failedNodes_iff :
    node ∈ dag.failedNodes states ↔ node ∈ dag.nodes ∧
      ((states node).doNotRun = false ∧ (states node).unifiedJobTemplate = none ∨
        JobUnsuccessful states node) := by
  rw [failedNodes, List.mem_filter, Bool.or_eq_true, decide_eq_true_eq]
  apply and_congr_right
  intro _
  apply or_congr_right
  cases hjob : (states node).job with
  | none => simp [JobUnsuccessful, hjob]
  | some job =>
    simp only [JobUnsuccessful, hjob, decide_eq_true_eq, unsuccessful_iff, Option.some.injEq]
    exact ⟨fun hstatus => ⟨job, rfl, hstatus⟩, fun ⟨_, hsame, hstatus⟩ => hsame ▸ hstatus⟩

theorem children_eq_zero_iff :
    ((dag.getChildrenByLabel node .failureNodes).length +
        (dag.getChildrenByLabel node .alwaysNodes).length == 0) = true ↔
      dag.failurePath node = [] := by
  rw [beq_iff_eq, failurePath, ← List.length_append, List.length_eq_zero_iff]

theorem isSome_hasWorkflowFailed_iff :
    (dag.hasWorkflowFailed states).isSome = true ↔
      ∃ node ∈ dag.failedNodes states, dag.failurePath node = [] := by
  have hsome : (dag.hasWorkflowFailed states).isSome = true ↔
      (dag.failedNodes states).filter (fun node =>
        (dag.getChildrenByLabel node .failureNodes).length +
          (dag.getChildrenByLabel node .alwaysNodes).length == 0) ≠ [] := by
    rw [hasWorkflowFailed]
    split
    · next hnil => simp [hnil]
    · next hcons => simpa using hcons
  rw [hsome, ne_eq, List.filter_eq_nil_iff]
  push Not
  simp only [children_eq_zero_iff]

/-! ## A finished workflow -/

theorem job_ended_of_done (hdone : dag.isWorkflowDone states = true) (hnode : node ∈ dag.nodes)
    {job : UnifiedJob} (hjob : (states node).job = some job) :
    job.status = .successful ∨ job.status.Unsuccessful := by
  have hchecked := List.all_eq_true.mp hdone node hnode
  rw [if_neg (by simp [hjob]), hjob] at hchecked
  have hfinal : job.status ∈ [.successful, .failed, .canceled, .error] := of_decide_eq_true hchecked
  revert hfinal
  cases job.status <;> decide

theorem collected_iff_of_done (hdone : dag.isWorkflowDone states = true)
    (hnode : node ∈ dag.nodes) :
    node ∈ dag.failedNodes states ∧ dag.failurePath node = [] ↔
      dag.FailsWorkflow states node ∨ dag.WronglyFailed states node := by
  rw [mem_failedNodes_iff]
  constructor
  · rintro ⟨⟨-, ⟨hrun, htemplate⟩ | hjob⟩, hpath⟩
    · cases hjob : (states node).job with
      | none => exact Or.inl ⟨hrun, Or.inr ⟨hjob, htemplate⟩, hpath⟩
      | some job =>
        rcases job_ended_of_done hdone hnode hjob with hsuccess | hfailed
        · exact Or.inr ⟨Or.inl ⟨hrun, htemplate, job, hjob, hsuccess⟩, hpath⟩
        · exact Or.inl ⟨hrun, Or.inl ⟨job, hjob, hfailed⟩, hpath⟩
    · cases hrun : (states node).doNotRun with
      | false => exact Or.inl ⟨hrun, Or.inl hjob, hpath⟩
      | true => exact Or.inr ⟨Or.inr ⟨hrun, hjob⟩, hpath⟩
  · rintro (⟨hrun, hfailed | hnothing, hpath⟩ | ⟨⟨hrun, htemplate, -⟩ | ⟨-, hjob⟩, hpath⟩)
    · exact ⟨⟨hnode, Or.inr hfailed⟩, hpath⟩
    · exact ⟨⟨hnode, Or.inl ⟨hrun, hnothing.2⟩⟩, hpath⟩
    · exact ⟨⟨hnode, Or.inl ⟨hrun, htemplate⟩⟩, hpath⟩
    · exact ⟨⟨hnode, Or.inr hjob⟩, hpath⟩

theorem isSome_hasWorkflowFailed_iff_of_done (hdone : dag.isWorkflowDone states = true) :
    (dag.hasWorkflowFailed states).isSome = true ↔
      (∃ node ∈ dag.nodes, dag.FailsWorkflow states node) ∨
        ∃ node ∈ dag.nodes, dag.WronglyFailed states node := by
  rw [isSome_hasWorkflowFailed_iff, ← exists_or]
  apply exists_congr
  intro node
  rw [← and_or_left]
  constructor
  · rintro ⟨hcollected, hpath⟩
    have hnode : node ∈ dag.nodes := (mem_failedNodes_iff.mp hcollected).1
    exact ⟨hnode, (collected_iff_of_done hdone hnode).mp ⟨hcollected, hpath⟩⟩
  · rintro ⟨hnode, hfails⟩
    exact (collected_iff_of_done hdone hnode).mpr hfails

/-- The verdict is right exactly when no node is wrongly collected, or another one
fails the workflow anyway. -/
theorem workflow_verdict_iff (hdone : dag.isWorkflowDone states = true) :
    ((dag.hasWorkflowFailed states).isSome = true ↔
        ∃ node ∈ dag.nodes, dag.FailsWorkflow states node) ↔
      (∀ node ∈ dag.nodes, ¬ dag.WronglyFailed states node) ∨
        ∃ node ∈ dag.nodes, dag.FailsWorkflow states node := by
  rw [isSome_hasWorkflowFailed_iff_of_done hdone]
  have hwrong : (∀ node ∈ dag.nodes, ¬ dag.WronglyFailed states node) ↔
      ¬ ∃ node ∈ dag.nodes, dag.WronglyFailed states node := by
    simp only [not_exists, not_and]
  rw [hwrong, or_iff_left_iff_imp, imp_iff_not_or]

end WorkflowDAG

/-! ## A template deleted after the job -/

open Forail.UnifiedJobs

def loneNode : WorkflowDAG := WorkflowDAG.ofTables [0] [] [] []

def endedStates (status : JobStatus) (template : Option TemplateId) : NodeStates := fun _ =>
  { doNotRun := false
    job := some { status := status, celeryTaskId := "", cancelFlag := false }
    unifiedJobTemplate := template
    allParentsMustConverge := false }

theorem workflow_verdict_iff_failed_job :
    (loneNode.hasWorkflowFailed (endedStates .failed (some 1))).isSome = true ∧
      ((loneNode.hasWorkflowFailed (endedStates .failed (some 1))).isSome = true ↔
        ∃ node ∈ loneNode.nodes, loneNode.FailsWorkflow (endedStates .failed (some 1)) node) := by
  refine ⟨by decide, (WorkflowDAG.workflow_verdict_iff (by decide)).mpr (Or.inl ?_)⟩
  rintro node - ⟨⟨-, htemplate, -⟩ | ⟨hrun, -⟩, -⟩
  · exact absurd htemplate (Option.some_ne_none 1)
  · exact Bool.noConfusion hrun

theorem successful_workflow_failed :
    ¬ ∀ (dag : WorkflowDAG) (states : NodeStates), dag.isWorkflowDone states = true →
      ((dag.hasWorkflowFailed states).isSome = true ↔
        ∃ node ∈ dag.nodes, dag.FailsWorkflow states node) := by
  intro hclaim
  have hfailed : (loneNode.hasWorkflowFailed (endedStates .successful none)).isSome = true := by
    decide
  have hdone : loneNode.isWorkflowDone (endedStates .successful none) = true := by decide
  obtain ⟨node, -, hfails⟩ := (hclaim loneNode _ hdone).mp hfailed
  rcases hfails.failed with ⟨job, hjob, hstatus⟩ | ⟨hjob, -⟩
  · obtain rfl := Option.some.inj hjob
    exact absurd hstatus (by decide)
  · exact absurd hjob (Option.some_ne_none _)

end Forail.DagWorkflow
