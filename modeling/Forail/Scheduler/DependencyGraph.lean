import Mathlib.Logic.Function.Basic
import Forail.Models.Tasks

/-!
# The dependency graph

Tables of the tasks that are active, by what they would disturb.  A task is
blocked when one of the entries it looks up is marked.
-/

namespace Forail.Scheduling

open Forail.Tasks

inductive JobType where
  | projectUpdates
  | inventoryUpdates
  | inventorySourceUpdates
  | jobTemplateJobs
  | systemJob
  | workflowJobTemplatesJobs
  deriving DecidableEq, Repr

/-- A table holds the first task that was marked under a key.  The only key of
the table of system jobs, a text in the source, is `0`. -/
structure DependencyGraph where
  data : JobType → ℕ → Option TaskId

namespace DependencyGraph

def empty : DependencyGraph where
  data := fun _ _ => none

variable (graph : DependencyGraph)

def markIfNoKey (jobType : JobType) (id : Option ℕ) (job : TaskId) : DependencyGraph :=
  match id with
  | none => graph
  | some id =>
      match graph.data jobType id with
      | some _ => graph
      | none =>
          { data := Function.update graph.data jobType
              (Function.update (graph.data jobType) id (some job)) }

def getItem (jobType : JobType) (id : Option ℕ) : Option TaskId :=
  id.bind (graph.data jobType)

def markWorkflowJob (workflowJobTemplate unifiedJobTemplate : Option ℕ) (job : TaskId) :
    DependencyGraph :=
  match workflowJobTemplate, unifiedJobTemplate with
  | some template, _ => graph.markIfNoKey .workflowJobTemplatesJobs (some template) job
  | none, some template => graph.markIfNoKey .workflowJobTemplatesJobs (some template) job
  | none, none => graph

def addJob (job : TaskId) : TaskKind → DependencyGraph
  | .projectUpdate project => graph.markIfNoKey .projectUpdates (some project) job
  | .inventoryUpdate source inventory =>
      (graph.markIfNoKey .inventoryUpdates inventory job).markIfNoKey
        .inventorySourceUpdates (some source) job
  | .job jobTemplate _ _ _ _ => graph.markIfNoKey .jobTemplateJobs jobTemplate job
  | .workflowJob workflowJobTemplate unifiedJobTemplate _ =>
      graph.markWorkflowJob workflowJobTemplate unifiedJobTemplate job
  | .systemJob => graph.markIfNoKey .systemJob (some 0) job
  | .adHocCommand inventory _ _ => graph.markIfNoKey .inventoryUpdates inventory job

def jobBlockedBy (jobTemplate project inventory : Option ℕ) (allowSimultaneous : Bool) :
    Option TaskId :=
  let projectBlock := graph.getItem .projectUpdates project
  let inventoryBlock := graph.getItem .inventoryUpdates inventory
  let jobBlock :=
    if allowSimultaneous then none else graph.getItem .jobTemplateJobs jobTemplate
  (projectBlock.or inventoryBlock).or jobBlock

def workflowJobBlockedBy (workflowJobTemplate unifiedJobTemplate : Option ℕ)
    (allowSimultaneous : Bool) : Option TaskId :=
  if allowSimultaneous then none
  else
    match workflowJobTemplate, unifiedJobTemplate with
    | some template, _ => graph.getItem .workflowJobTemplatesJobs (some template)
    | none, some template =>
        (graph.getItem .workflowJobTemplatesJobs (some template)).or
          (graph.getItem .jobTemplateJobs (some template))
    | none, none => none

def taskBlockedBy : TaskKind → Option TaskId
  | .projectUpdate project => graph.getItem .projectUpdates (some project)
  | .inventoryUpdate source _ => graph.getItem .inventorySourceUpdates (some source)
  | .job jobTemplate project inventory allowSimultaneous _ =>
      graph.jobBlockedBy jobTemplate project inventory allowSimultaneous
  | .systemJob => graph.getItem .systemJob (some 0)
  | .adHocCommand inventory _ _ => graph.getItem .inventoryUpdates inventory
  | .workflowJob workflowJobTemplate unifiedJobTemplate allowSimultaneous =>
      graph.workflowJobBlockedBy workflowJobTemplate unifiedJobTemplate allowSimultaneous

def Marks : TaskKind → JobType → ℕ → Prop
  | .projectUpdate project, jobType, id => jobType = .projectUpdates ∧ project = id
  | .inventoryUpdate source inventory, jobType, id =>
      (jobType = .inventoryUpdates ∧ inventory = some id) ∨
        (jobType = .inventorySourceUpdates ∧ source = id)
  | .job jobTemplate _ _ _ _, jobType, id =>
      jobType = .jobTemplateJobs ∧ jobTemplate = some id
  | .workflowJob workflowJobTemplate unifiedJobTemplate _, jobType, id =>
      jobType = .workflowJobTemplatesJobs ∧
        workflowJobTemplate.or unifiedJobTemplate = some id
  | .systemJob, jobType, id => jobType = .systemJob ∧ 0 = id
  | .adHocCommand inventory _ _, jobType, id =>
      jobType = .inventoryUpdates ∧ inventory = some id

variable {graph} {job : TaskId} {jobType : JobType} {id : ℕ}

theorem isSome_markIfNoKey {other : JobType} {key : Option ℕ} :
    ((graph.markIfNoKey other key job).data jobType id).isSome = true ↔
      (graph.data jobType id).isSome = true ∨ (jobType = other ∧ key = some id) := by
  cases key with
  | none => simp [markIfNoKey]
  | some key =>
    simp only [markIfNoKey, Option.some.injEq]
    cases hold : graph.data other key with
    | some marked =>
      simp only [iff_self_or]
      intro hsame
      rw [hsame.1, ← hsame.2, hold]
      rfl
    | none =>
      by_cases htype : jobType = other
      · subst htype
        by_cases hkey : key = id
        · simp [hkey]
        · simp [Function.update_of_ne (Ne.symm hkey), hkey]
      · simp [htype]

theorem isSome_addJob {kind : TaskKind} :
    ((graph.addJob job kind).data jobType id).isSome = true ↔
      (graph.data jobType id).isSome = true ∨ Marks kind jobType id := by
  cases kind with
  | projectUpdate project =>
    simp [addJob, isSome_markIfNoKey, Marks]
  | inventoryUpdate source inventory =>
    simp [addJob, isSome_markIfNoKey, Marks, or_assoc]
  | job jobTemplate project inventory allowSimultaneous size =>
    simp [addJob, isSome_markIfNoKey, Marks]
  | workflowJob workflowJobTemplate unifiedJobTemplate allowSimultaneous =>
    cases workflowJobTemplate <;> cases unifiedJobTemplate <;>
      simp [addJob, markWorkflowJob, isSome_markIfNoKey, Marks]
  | systemJob => simp [addJob, isSome_markIfNoKey, Marks]
  | adHocCommand inventory forks totalHosts =>
    simp [addJob, isSome_markIfNoKey, Marks]

end DependencyGraph

end Forail.Scheduling
