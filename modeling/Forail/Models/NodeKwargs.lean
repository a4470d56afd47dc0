import Forail.Models.SlicedRuns

/-!
# The job of a workflow node

`get_job_kwargs` combines the prompts of a workflow job with those of its node, hands them
to the acceptance of the template, and adds the artifacts of the parents.  What is passed
past the acceptance depends on the kind of the template.
-/

namespace Forail.NodeKwargs

open Forail.FactCache Forail.Grouping Forail.Json Forail.Surveys Forail.LaunchPrompts
open Forail.SlicedLaunches (JobKwargs ParentNode WorkflowJobNode artifactPasswords
  combinePrompts parentArtifacts replaceStr sliceNumber)

structure WorkflowJobTemplate where
  chars : (field : CharPrompt) → Option field.Content
  askChars : CharPrompt → Bool
  inventory : Option InventoryId
  askInventory : Bool
  askLabels : Bool
  survey : SurveyTemplate

/-- Projects, inventory sources, approvals and system jobs take no prompts of a node. -/
inductive NodeTemplate where
  | jobTemplate (template : JobTemplate)
  | workflowJobTemplate (template : WorkflowJobTemplate)
  | other

/-- A workflow job, with its own prompts or, for the job of a sliced template, those of its
launch configuration.  Passwords are only stored as the replacement. -/
structure WorkflowJob where
  ofJobTemplate : Bool
  config : LaunchConfig
  createdBy : Option ℕ
  nodeCount : ℕ
  passwords_replaced : ∀ key value,
    config.surveyPasswords.lookup key = some value → value = replaceStr

def workflowFields : List CharPrompt := [.limit, .scmBranch, .jobTags, .skipTags]

def forWorkflow (prompts : Prompts) : Prompts :=
  { Prompts.none with
    chars := fun field => if field ∈ workflowFields then prompts.chars field else none
    inventory := prompts.inventory
    labels := prompts.labels
    extraVars := prompts.extraVars
    surveyPasswords := prompts.surveyPasswords }

def WorkflowJob.promptsDict (env : Installation) (workflowJob : WorkflowJob) : Prompts :=
  if workflowJob.ofJobTemplate then workflowJob.config.promptsDict env
  else { workflowJob.config.promptsDict env with labels := none }

def WorkflowJobTemplate.acceptOrIgnoreJobKwargs (env : Installation)
    (template : WorkflowJobTemplate) (excludeErrors : List String) (kwargs : Prompts) : Verdict :=
  let acceptance := template.survey.acceptOrIgnoreVariables env.surveys excludeErrors
    (kwargs.surveyPasswords.getD ∅).keys (kwargs.extraVars.getD ∅)
  let chars : (field : CharPrompt) → Decision field.Content := fun field =>
    decideField excludeErrors (template.askChars field)
      (fun value => decide (some value = template.chars field)) (fun _ => none)
      (kwargs.chars field)
  let inventory := decideField excludeErrors template.askInventory
    (fun inventory => decide (inventory = template.inventory)) (fun _ => none) kwargs.inventory
  let labels := decideField excludeErrors template.askLabels (fun _ => false) (fun _ => none)
    kwargs.labels
  let entries : List FieldError :=
    [("variables_needed_to_start", acceptance.variablesNeededToStart),
      ("extra_vars", acceptance.extraVars)]
  { prompted :=
      { Prompts.none with
        chars := fun field => (chars field).prompted
        inventory := inventory.prompted
        labels := labels.prompted
        extraVars := nonEmptyDict acceptance.accepted }
    rejected :=
      { Prompts.none with
        chars := fun field => (chars field).ignored
        inventory := inventory.ignored
        labels := labels.ignored
        extraVars := nonEmptyDict acceptance.rejected }
    errors := (workflowFields.flatMap fun field => (chars field).errors field.fieldName) ++
      inventory.errors "inventory" ++ labels.errors "labels" ++
      entries.filter fun entry => !entry.2.isEmpty }

/-- The branches that combine the variables or the passwords of a node with those of its
workflow job, before the update that puts the rest of the workflow job's prompts over them. -/
def combineForWorkflow (env : Installation) (node workflow : Prompts) : Prompts :=
  match node.extraVars, node.surveyPasswords with
  | some extraVars, _ =>
      combinePrompts env
        { node with extraVars := some (workflow.extraVars.getD ∅ ∪ extraVars) }
        { workflow with extraVars := none }
  | none, some passwords =>
      combinePrompts env
        { node with surveyPasswords := some (workflow.surveyPasswords.getD ∅ ∪ passwords) }
        { workflow with surveyPasswords := none }
  | none, none => combinePrompts env node workflow

def acceptedPrompts (env : Installation) (template : Option NodeTemplate)
    (node workflow : Prompts) : Prompts :=
  match template with
  | some (.jobTemplate template) =>
      (template.acceptOrIgnoreJobKwargs env [] (combinePrompts env node
        { workflow with extraVars := none, surveyPasswords := none })).prompted
  | some (.workflowJobTemplate template) =>
      (template.acceptOrIgnoreJobKwargs env []
        (combineForWorkflow env (forWorkflow node) (forWorkflow workflow))).prompted
  | _ => Prompts.none

/-- `wj_special_vars` and `wj_special_passwords`, which only job templates get. -/
def specialPrompts (template : Option NodeTemplate) (workflow : Prompts) :
    Vars × Dict String String :=
  match template with
  | some (.jobTemplate _) => (workflow.extraVars.getD ∅, workflow.surveyPasswords.getD ∅)
  | _ => (∅, ∅)

def artifactVars (template : Option NodeTemplate) (artifacts : Vars) : Vars :=
  match template with
  | some (.jobTemplate _) | some (.workflowJobTemplate _) => artifacts.erase "_ansible_no_log"
  | _ => ∅

def getJobKwargs (env : Installation) (template : Option NodeTemplate)
    (workflowJob : WorkflowJob) (node : WorkflowJobNode) (parents : List ParentNode) :
    JobKwargs :=
  let workflowPrompts := workflowJob.promptsDict env
  let accepted := acceptedPrompts env template (node.toLaunchConfig.promptsDict env)
    workflowPrompts
  let special := specialPrompts template workflowPrompts
  let artifacts := parentArtifacts parents
  let passwords : Dict String String :=
    special.2 ∪ artifactPasswords artifacts (accepted.surveyPasswords.getD ∅)
  let extraVars := special.1 ∪ (artifactVars template artifacts ∪ accepted.extraVars.getD ∅)
  let nodeArtifacts :=
    if artifacts.entries ≠ [] ∧ parents ≠ [] then artifacts else node.ancestorArtifacts
  let slice := if parents = [] then sliceNumber nodeArtifacts else none
  { prompts :=
      { accepted with
        extraVars := nonEmptyDict extraVars
        surveyPasswords := nonEmptyDict passwords }
    eagerFields :=
      { launchType := some "workflow"
        createdBy := workflowJob.createdBy
        allowSimultaneous := slice.map fun _ => true
        jobSliceNumber := slice
        jobSliceCount := slice.map fun _ => workflowJob.nodeCount }
    preventSlicing := slice.isSome
    ancestorArtifacts := nodeArtifacts }

/-! ## Passwords -/

section Passwords

variable {env : Installation} {template : Option NodeTemplate} {workflowJob : WorkflowJob}
  {node : WorkflowJobNode} {parents : List ParentNode} {artifacts : Vars} {key : String}

def HiddenArtifact (artifacts : Vars) (key : String) : Prop :=
  "_ansible_no_log" ∈ artifacts ∧ key ∈ artifacts ∧ key ≠ "_ansible_no_log"

instance (artifacts : Vars) (key : String) : Decidable (HiddenArtifact artifacts key) :=
  inferInstanceAs (Decidable (_ ∧ _ ∧ _))

theorem lookup_artifactPasswords (passwords : Dict String String) :
    (artifactPasswords artifacts passwords).lookup key =
      if HiddenArtifact artifacts key then some replaceStr else passwords.lookup key := by
  rw [artifactPasswords]
  by_cases hmarked : "_ansible_no_log" ∈ artifacts
  · rw [if_pos hmarked, lookup_assignAll_const]
    apply if_congr _ rfl rfl
    rw [List.mem_filter, ← AList.mem_keys, decide_eq_true_eq, HiddenArtifact]
    exact (and_iff_right hmarked).symm
  · rw [if_neg hmarked, if_neg fun hhidden => hmarked hhidden.1]

theorem surveyPasswords_acceptedPrompts (node workflow : Prompts) :
    (acceptedPrompts env template node workflow).surveyPasswords = none := by
  rw [acceptedPrompts.eq_def]
  split <;> rfl

theorem lookup_surveyPasswords_getJobKwargs :
    ((getJobKwargs env template workflowJob node parents).prompts.surveyPasswords.getD
        ∅).lookup key =
      ((specialPrompts template (workflowJob.promptsDict env)).2.lookup key).or
        (if HiddenArtifact (parentArtifacts parents) key then some replaceStr else none) := by
  rw [getJobKwargs, SlicedLaunches.getD_nonEmptyDict, lookup_combined,
    surveyPasswords_acceptedPrompts, lookup_artifactPasswords]
  rfl

/-- The passwords of the node and of its workflow job that name one of the variables are
handed on, with the value of the workflow job where both have one. -/
def PasswordsHanded (workflowJob : WorkflowJob) (node : WorkflowJobNode) (kwargs : JobKwargs)
    (vars : Vars) : Prop :=
  ∀ key ∈ vars, ∀ value,
    (workflowJob.config.surveyPasswords ∪ node.surveyPasswords).lookup key = some value →
      (kwargs.prompts.surveyPasswords.getD ∅).lookup key = some value

/-- A nested workflow is handed no passwords but those of hidden artifacts. -/
theorem passwordsHanded_iff (env : Installation) (template : WorkflowJobTemplate)
    (workflowJob : WorkflowJob) (node : WorkflowJobNode) (parents : List ParentNode)
    (vars : Vars) :
    PasswordsHanded workflowJob node
        (getJobKwargs env (some (.workflowJobTemplate template)) workflowJob node parents) vars ↔
      ∀ key ∈ vars, ∀ value,
        (workflowJob.config.surveyPasswords ∪ node.surveyPasswords).lookup key = some value →
          HiddenArtifact (parentArtifacts parents) key ∧ value = replaceStr := by
  refine forall_congr' fun key => forall_congr' fun _ => forall_congr' fun value =>
    forall_congr' fun _ => ?_
  have hspecial : (specialPrompts (some (.workflowJobTemplate template))
      (workflowJob.promptsDict env)).2 = ∅ := rfl
  rw [lookup_surveyPasswords_getJobKwargs, hspecial, AList.lookup_empty, Option.none_or,
    Option.ite_none_right_eq_some, Option.some.injEq, @eq_comm _ replaceStr]

def askingWorkflow : WorkflowJobTemplate where
  chars _ := none
  askChars _ := false
  inventory := none
  askInventory := false
  askLabels := false
  survey := ⟨false, [], true, ∅, "Workflow Job Template"⟩

def tokenWorkflowJob : WorkflowJob where
  ofJobTemplate := false
  config :=
    { LaunchConfig.empty with
      extraData := AList.singleton "token" (.str "$encrypted$UTF8$AESCBC$c2VjcmV0")
      surveyPasswords := AList.singleton "token" replaceStr }
  createdBy := none
  nodeCount := 1
  passwords_replaced := by
    intro key value hvalue
    rw [lookup_singleton] at hvalue
    exact (Option.some.inj (Option.ite_none_right_eq_some.mp hvalue).2).symm

theorem token_handed_unmarked :
    ¬ ∀ (env : Installation) (template : WorkflowJobTemplate) (workflowJob : WorkflowJob)
      (node : WorkflowJobNode) (parents : List ParentNode),
      PasswordsHanded workflowJob node
        (getJobKwargs env (some (.workflowJobTemplate template)) workflowJob node parents)
        ((getJobKwargs env (some (.workflowJobTemplate template)) workflowJob node
          parents).prompts.extraVars.getD ∅) := by
  intro hclaim
  have hhanded := hclaim SlicedLaunches.sampleInstallation askingWorkflow tokenWorkflowJob
    { LaunchConfig.empty with ancestorArtifacts := ∅ } [] "token" (by decide) replaceStr
    (by decide)
  rw [lookup_surveyPasswords_getJobKwargs] at hhanded
  exact absurd hhanded (by decide)

end Passwords

end Forail.NodeKwargs
