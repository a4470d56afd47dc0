import Mathlib.Data.List.Nodup
import Forail.Models.UnifiedJobs

/-!
# Workflows in workflows

A node of a workflow job may use a workflow template, and the job that is
spawned for it is a workflow job again.  Before it starts the job, the workflow
manager walks up the workflow jobs above it and refuses the start when the
template is among theirs.  The jobs and nodes below are all those of the
database.
-/

namespace Forail.NestedWorkflows

open Forail.UnifiedJobs

abbrev TemplateId := ℕ

abbrev JobId := ℕ

/-- The kinds of a `UnifiedJobTemplate`; of the nodes of a workflow template only
their templates matter here. -/
inductive Template where
  | workflow (nodes : List (Option TemplateId))
  | jobTemplate
  | other
  deriving DecidableEq, Repr

def Template.isWorkflow : Template → Bool
  | workflow _ => true
  | _ => false

inductive LaunchType where
  | manual
  | relaunch
  | callback
  | scheduled
  | dependency
  | workflow
  | webhook
  | sync
  | scm
  deriving DecidableEq, Repr

/-- `jobTemplate` is set for a workflow job that holds the slices of a job. -/
structure Job where
  isWorkflowJob : Bool
  workflowJobTemplate : Option TemplateId
  jobTemplate : Option TemplateId
  launchType : LaunchType
  status : JobStatus
  deriving DecidableEq, Repr

/-- `jobSlice` says that a slice number is among the ancestor artifacts of a node
without parents. -/
structure WorkflowJobNode where
  workflowJob : JobId
  unifiedJobTemplate : Option TemplateId
  job : Option JobId
  jobSlice : Bool
  deriving DecidableEq, Repr

structure Store where
  templates : List Template
  jobs : List Job
  nodes : List WorkflowJobNode
  started : List JobId
  deriving DecidableEq, Repr

namespace Store

def ofTemplates (templates : List Template) : Store where
  templates := templates
  jobs := []
  nodes := []
  started := []

variable (store : Store)

/-! ## The walk to the ancestors -/

def getWorkflowJob (job : JobId) : Option JobId :=
  (store.jobs[job]?).bind fun row =>
    if row.launchType = .workflow then
      (store.nodes.find? fun node => node.job = some job).map WorkflowJobNode.workflowJob
    else none

def workflowTemplate? (job : JobId) : Option TemplateId :=
  (store.jobs[job]?).bind Job.workflowJobTemplate

/-- The loop of `get_ancestor_workflows`; `none` when the fuel runs out. -/
def ancestorLoop : ℕ → List JobId → List TemplateId → Option JobId → Option (List TemplateId)
  | 0, _, _, _ => none
  | _ + 1, _, ancestors, none => some ancestors
  | fuel + 1, wjIds, ancestors, some wj =>
      match store.workflowTemplate? wj with
      | none => some ancestors
      | some template =>
          if wj ∈ wjIds then some ancestors
          else
            ancestorLoop fuel (wj :: wjIds) (ancestors ++ [template]) (store.getWorkflowJob wj)

def getAncestorWorkflows (job : JobId) : Option (List TemplateId) :=
  store.ancestorLoop (store.jobs.length + 1) [job] [] (store.getWorkflowJob job)

/-! ## Creating and starting jobs -/

/-- `create_unified_job` with the answer of `get_effective_slice_ct`.  The new
job is the last one. -/
def createUnifiedJob (template : TemplateId) (launchType : LaunchType) (preventSlicing : Bool)
    (sliceCount : ℕ) : Store :=
  match store.templates[template]? with
  | some (.workflow nodes) =>
      { store with
        jobs := store.jobs ++
          [{ isWorkflowJob := true
             workflowJobTemplate := some template
             jobTemplate := none
             launchType := launchType
             status := .new }]
        nodes := store.nodes ++ nodes.map fun unifiedJobTemplate =>
          { workflowJob := store.jobs.length
            unifiedJobTemplate := unifiedJobTemplate
            job := none
            jobSlice := false } }
  | some .jobTemplate =>
      if 1 < sliceCount && !preventSlicing then
        { store with
          jobs := store.jobs ++
            [{ isWorkflowJob := true
               workflowJobTemplate := none
               jobTemplate := some template
               launchType := launchType
               status := .new }]
          nodes := store.nodes ++ List.replicate sliceCount
            { workflowJob := store.jobs.length
              unifiedJobTemplate := some template
              job := none
              jobSlice := true } }
      else
        { store with
          jobs := store.jobs ++
            [{ isWorkflowJob := false
               workflowJobTemplate := none
               jobTemplate := some template
               launchType := launchType
               status := .new }] }
  | _ =>
      { store with
        jobs := store.jobs ++
          [{ isWorkflowJob := false
             workflowJobTemplate := none
             jobTemplate := none
             launchType := launchType
             status := .new }] }

/-- A workflow job without a template: a bulk job, or the copy of a workflow job
whose template is gone. -/
def createOrphan (launchType : LaunchType) (nodes : List (Option TemplateId)) : Store :=
  { store with
    jobs := store.jobs ++
      [{ isWorkflowJob := true
         workflowJobTemplate := none
         jobTemplate := none
         launchType := launchType
         status := .new }]
    nodes := store.nodes ++ nodes.map fun unifiedJobTemplate =>
      { workflowJob := store.jobs.length
        unifiedJobTemplate := unifiedJobTemplate
        job := none
        jobSlice := false } }

def setStatus (job : JobId) (status : JobStatus) : Store :=
  { store with jobs := store.jobs.modify job fun row => { row with status := status } }

def signalStart (job : JobId) : Store :=
  { store.setStatus job .pending with started := job :: store.started }

/-- What a pass finds out about the job it spawns, besides the recursion: the
slice count, `_resources_sufficient_for_launch`, and whether `signal_start`
finds what it needs. -/
structure Launch where
  sliceCount : ℕ
  resourcesSufficient : Bool
  canSignalStart : Bool

def isRecursive (template : TemplateId) (job : JobId) : Bool :=
  ((store.templates[template]?).any Template.isWorkflow) &&
    (store.getAncestorWorkflows job).any fun ancestors => decide (template ∈ ancestors)

def spawn (index : ℕ) (node : WorkflowJobNode) (template : TemplateId) (launch : Launch) : Store :=
  let job := store.jobs.length
  let created := store.createUnifiedJob template .workflow node.jobSlice launch.sliceCount
  let linked := { created with nodes := created.nodes.set index { node with job := some job } }
  if !linked.isRecursive template job && launch.resourcesSufficient && launch.canSignalStart then
    linked.signalStart job
  else linked.setStatus job .failed

/-! ## Steps -/

inductive Event where
  | createTemplate (template : Template)
  | editWorkflow (template : TemplateId) (nodes : List (Option TemplateId))
  /-- A launch or a relaunch by a user, a schedule or a webhook. -/
  | launch (template : TemplateId) (launchType : LaunchType) (sliceCount : ℕ)
  | launchOrphan (launchType : LaunchType) (nodes : List (Option TemplateId))
  | signalStart (job : JobId)
  /-- The workflow manager spawns the job of a node. -/
  | spawn (node : ℕ) (launch : Launch)
  /-- Another process moves a job on that has been started, or ends one. -/
  | updateStatus (job : JobId) (status : JobStatus)

def step (store : Store) : Event → Option Store
  | .createTemplate template => some { store with templates := store.templates ++ [template] }
  | .editWorkflow template nodes =>
      if (store.templates[template]?).any Template.isWorkflow then
        some { store with templates := store.templates.set template (.workflow nodes) }
      else none
  | .launch template launchType sliceCount =>
      if launchType = .workflow then none
      else some (store.createUnifiedJob template launchType false sliceCount)
  | .launchOrphan launchType nodes =>
      if launchType = .workflow then none else some (store.createOrphan launchType nodes)
  | .signalStart job =>
      (store.jobs[job]?).bind fun row =>
        if row.status ∈ [.new, .waiting] then some (store.signalStart job) else none
  | .spawn index launch =>
      (store.nodes[index]?).bind fun node =>
        match node.job, node.unifiedJobTemplate with
        | none, some template =>
            if (store.jobs[node.workflowJob]?).any fun row => decide (row.status = .running) then
              some (store.spawn index node template launch)
            else none
        | _, _ => none
  | .updateStatus job status =>
      (store.jobs[job]?).bind fun row =>
        if row.status ∈ [.pending, .waiting, .running] ∨ (row.status = .new ∧ ¬ status.Active) then
          some (store.setStatus job status)
        else none

end Store

end Forail.NestedWorkflows
