import Mathlib.Data.Finset.Dedup
import Forail.Models.LaunchPrompts

/-!
# Sliced launches

A template with several slices is launched as a workflow job with one node for each slice.
The prompts of the launch are saved with the workflow job and go through the acceptance of
the template once more for each node.
-/

namespace Forail.SlicedLaunches

open Forail.FactCache Forail.Grouping Forail.Json Forail.Surveys Forail.LaunchPrompts
open Forail.SlicedHosts

structure LaunchFields where
  launchType : Option String
  createdBy : Option ℕ
  allowSimultaneous : Option Bool

/-- The `_eager_fields`, among which only relaunches and slices have a slice. -/
structure EagerFields extends LaunchFields where
  jobSliceNumber : Option ℕ
  jobSliceCount : Option ℕ

structure Job where
  chars : (field : CharPrompt) → field.Content
  inventory : Option InventoryId
  executionEnvironment : Option ℕ
  credentials : Finset CredentialId
  labels : Finset LabelId
  preferredInstanceGroupsCache : List InstanceGroupId
  extraVars : Vars
  surveyPasswords : Dict String String
  launchType : String
  createdBy : Option ℕ
  allowSimultaneous : Bool
  jobSliceNumber : ℕ
  jobSliceCount : ℕ
  launchConfig : LaunchConfig

structure WorkflowJobNode extends LaunchConfig where
  ancestorArtifacts : Vars

structure WorkflowJob where
  isSlicedJob : Bool
  launchType : String
  createdBy : Option ℕ
  launchConfig : LaunchConfig
  nodes : List WorkflowJobNode

inductive UnifiedJob where
  | job (job : Job)
  | workflowJob (workflowJob : WorkflowJob)

structure ParentNode where
  ancestorArtifacts : Vars
  jobArtifacts : Option Vars

/-- What `get_job_kwargs` returns, and the artifacts that it leaves at the node. -/
structure JobKwargs where
  prompts : Prompts
  eagerFields : EagerFields
  preventSlicing : Bool
  ancestorArtifacts : Vars

def replaceStr : String := "$encrypted$"

/-! ## Launching -/

section Launching

variable (env : Installation) (template : JobTemplate)

def newJobPasswords (kwargs : Prompts) : Dict String String :=
  assignAll id (fun _ => some replaceStr) template.survey.surveyPasswordVariables
    (kwargs.surveyPasswords.getD ∅)

/-- The keyword arguments as a launch saves them: the variables are encrypted and without
placeholders. -/
def savedKwargs (kwargs : Prompts) : Prompts :=
  { kwargs with
    extraVars := kwargs.extraVars.map (template.survey.passedVars env.surveys)
    surveyPasswords := nonEmptyDict (newJobPasswords template kwargs) }

/-- The prompted credentials combined with those of the template, unless there are none. -/
def combinedCredentials (kwargs : Prompts) : Option (List CredentialId) :=
  kwargs.credentials.map fun prompted =>
    if prompted = [] then []
    else (env.layered template.credentials prompted).entries.map Sigma.snd

def spawnJob (kwargs : Prompts) (eager : EagerFields) : Job :=
  let inventory := kwargs.inventory.getD template.inventory
  let instanceGroups := kwargs.instanceGroups.getD []
  { chars := fun field => (kwargs.chars field).getD (template.chars field)
    inventory := inventory
    executionEnvironment := kwargs.executionEnvironment.or template.executionEnvironment
    credentials := ((combinedCredentials env template kwargs).getD template.credentials).toFinset
    labels := (template.labels ++ kwargs.labels.getD []).toFinset
    preferredInstanceGroupsCache :=
      if instanceGroups = [] then template.preferredInstanceGroups inventory else instanceGroups
    extraVars := template.survey.createUnifiedJob env.surveys (kwargs.extraVars.getD ∅)
    surveyPasswords := newJobPasswords template kwargs
    launchType := eager.launchType.getD "manual"
    createdBy := eager.createdBy
    allowSimultaneous := eager.allowSimultaneous.getD template.allowSimultaneous
    jobSliceNumber := eager.jobSliceNumber.getD 0
    jobSliceCount := eager.jobSliceCount.getD (kwargs.jobSliceCount.getD template.jobSliceCount)
    launchConfig := createConfigFromPrompts env template
      { savedKwargs env template kwargs with
        credentials := combinedCredentials env template kwargs } }

def sliceNode (index : ℕ) : WorkflowJobNode :=
  { LaunchConfig.empty with
    ancestorArtifacts := AList.singleton "job_slice" (.int ((index + 1 : ℕ) : ℤ)) }

/-- `create_unified_job` of `UnifiedJobTemplate` for the workflow job of a sliced template.
The combination of credentials is for fields that a workflow job does not have. -/
def spawnWorkflowJob (kwargs : Prompts) (eager : EagerFields) (sliceCt : ℕ) : WorkflowJob where
  isSlicedJob := true
  launchType := eager.launchType.getD "manual"
  createdBy := eager.createdBy
  launchConfig := createConfigFromPrompts env template (savedKwargs env template kwargs)
  nodes := (List.range sliceCt).map sliceNode

def createUnifiedJob (kwargs : Prompts) (eager : EagerFields) (preventSlicing : Bool) :
    UnifiedJob :=
  let sliceCt := template.getEffectiveSliceCt env kwargs
  if 1 < sliceCt ∧ preventSlicing = false then
    .workflowJob (spawnWorkflowJob env template kwargs eager sliceCt)
  else if 1 < template.jobSliceCount ∧ preventSlicing = false then
    .job (spawnJob env template kwargs { eager with jobSliceCount := some 1 })
  else if preventSlicing then
    .job (spawnJob env template kwargs
      { eager with jobSliceCount := some (eager.jobSliceCount.getD 1) })
  else .job (spawnJob env template kwargs eager)

def updatePrompts (prompts newPrompts : Prompts) : Prompts where
  chars := fun field => (newPrompts.chars field).or (prompts.chars field)
  jobSliceCount := newPrompts.jobSliceCount.or prompts.jobSliceCount
  inventory := newPrompts.inventory.or prompts.inventory
  executionEnvironment := newPrompts.executionEnvironment.or prompts.executionEnvironment
  credentials := newPrompts.credentials.or prompts.credentials
  labels := newPrompts.labels.or prompts.labels
  instanceGroups := newPrompts.instanceGroups.or prompts.instanceGroups
  extraVars := newPrompts.extraVars.or prompts.extraVars
  surveyPasswords := newPrompts.surveyPasswords.or prompts.surveyPasswords

def Job.copyUnifiedJob (job : Job) (newPrompts : Prompts) (fields : LaunchFields) : UnifiedJob :=
  createUnifiedJob env template (updatePrompts (job.launchConfig.promptsDict env) newPrompts)
    { fields with
      launchType := some "relaunch"
      jobSliceNumber := some job.jobSliceNumber
      jobSliceCount := some job.jobSliceCount } true

/-! ## The jobs of nodes -/

def combinePrompts (node workflow : Prompts) : Prompts :=
  { updatePrompts node workflow with
    credentials :=
      match workflow.credentials, node.credentials with
      | some prompted, some own => some ((env.layered own prompted).entries.map Sigma.snd)
      | prompted, own => prompted.or own }

def parentArtifacts (parents : List ParentNode) : Vars :=
  parents.foldl (fun artifacts parent =>
    parent.jobArtifacts.getD ∅ ∪ (parent.ancestorArtifacts ∪ artifacts)) ∅

def artifactPasswords (artifacts : Vars) (passwords : Dict String String) : Dict String String :=
  if "_ansible_no_log" ∈ artifacts then
    assignAll id (fun _ => some replaceStr)
      (artifacts.keys.filter fun key => key ≠ "_ansible_no_log") passwords
  else passwords

def sliceNumber (artifacts : Vars) : Option ℕ :=
  match artifacts.lookup "job_slice" with
  | some (.int number) => some number.toNat
  | _ => none

def getJobKwargs (workflowJob : WorkflowJob) (node : WorkflowJobNode)
    (parents : List ParentNode) : JobKwargs :=
  let workflowPrompts := workflowJob.launchConfig.promptsDict env
  let verdict := template.acceptOrIgnoreJobKwargs env []
    (combinePrompts env (node.toLaunchConfig.promptsDict env)
      { workflowPrompts with extraVars := none, surveyPasswords := none })
  let artifacts := parentArtifacts parents
  let passwords : Dict String String := workflowPrompts.surveyPasswords.getD ∅ ∪
    artifactPasswords artifacts (verdict.prompted.surveyPasswords.getD ∅)
  let extraVars := workflowPrompts.extraVars.getD ∅ ∪
    (artifacts.erase "_ansible_no_log" ∪ verdict.prompted.extraVars.getD ∅)
  let nodeArtifacts :=
    if artifacts.entries ≠ [] ∧ parents ≠ [] then artifacts else node.ancestorArtifacts
  let slice := if parents = [] then sliceNumber nodeArtifacts else none
  { prompts :=
      { verdict.prompted with
        extraVars := nonEmptyDict extraVars
        surveyPasswords := nonEmptyDict passwords }
    eagerFields :=
      { launchType := some "workflow"
        createdBy := workflowJob.createdBy
        allowSimultaneous := slice.map fun _ => true
        jobSliceNumber := slice
        jobSliceCount := slice.map fun _ => workflowJob.nodes.length }
    preventSlicing := slice.isSome
    ancestorArtifacts := nodeArtifacts }

/-- The jobs that are spawned for the nodes of a sliced job, which have no parents. -/
def spawnedJobs (workflowJob : WorkflowJob) : List UnifiedJob :=
  workflowJob.nodes.map fun node =>
    let kwargs := getJobKwargs env template workflowJob node []
    createUnifiedJob env template kwargs.prompts kwargs.eagerFields kwargs.preventSlicing

end Launching

end Forail.SlicedLaunches
