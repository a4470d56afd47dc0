import Forail.Core.Grouping
import Forail.Models.InventoryScript
import Forail.Models.Surveys

/-!
# The prompts of a launch

A job template accepts the values that it asks for and ignores others.  The accepted values
are saved in a launch configuration, which hands them out again as the prompts of a later
launch.
-/

namespace Forail.LaunchPrompts

open Forail.FactCache Forail.Grouping Forail.Json Forail.Surveys

abbrev CredentialId := ℕ

abbrev LabelId := ℕ

abbrev InstanceGroupId := ℕ

/-- The fields that a launch configuration stores in `char_prompts`, apart from the number
of slices. -/
inductive CharPrompt where
  | diffMode
  | jobType
  | verbosity
  | forks
  | timeout
  | limit
  | scmBranch
  | jobTags
  | skipTags
  deriving DecidableEq, Repr

namespace CharPrompt

abbrev Content : CharPrompt → Type
  | diffMode => Bool
  | verbosity => ℕ
  | forks => ℕ
  | timeout => ℤ
  | jobType | limit | scmBranch | jobTags | skipTags => String

instance instDecidableEqContent : (field : CharPrompt) → DecidableEq field.Content
  | diffMode => inferInstanceAs (DecidableEq Bool)
  | verbosity => inferInstanceAs (DecidableEq ℕ)
  | forks => inferInstanceAs (DecidableEq ℕ)
  | timeout => inferInstanceAs (DecidableEq ℤ)
  | jobType | limit | scmBranch | jobTags | skipTags => inferInstanceAs (DecidableEq String)

def fieldName : CharPrompt → String
  | diffMode => "diff_mode"
  | jobType => "job_type"
  | verbosity => "verbosity"
  | forks => "forks"
  | timeout => "timeout"
  | limit => "limit"
  | scmBranch => "scm_branch"
  | jobTags => "job_tags"
  | skipTags => "skip_tags"

def all : List CharPrompt :=
  [diffMode, jobType, verbosity, forks, timeout, limit, scmBranch, jobTags, skipTags]

end CharPrompt

/-- `uniqueHash` is the type of the credential and its vault id, and `displayHash` shows
them. -/
structure Credential where
  uniqueHash : String
  displayHash : String
  name : String
  kind : String
  passwordsNeeded : List String

structure Project where
  scmBranch : String
  allowOverride : Bool
  reasonIfFailed : Option String

/-- The rows that a launch reads, and the order in which a set and a query without an order
list their elements. -/
structure Installation where
  surveys : Surroundings
  tables : InventoryScript.Tables
  inventories : InventoryId → Inventory String
  pendingDeletion : InventoryId → Bool
  credentials : CredentialId → Credential
  setOrder : List ℕ → List ℕ
  rowOrder : List ℕ → List ℕ
  setOrder_perm : ∀ items, (setOrder items).Perm items
  rowOrder_perm : ∀ items, (rowOrder items).Perm items

/-- The fields of a template that a launch can ask for, each with whether it does, and the
groups that a job prefers when it is given none. -/
structure JobTemplate where
  chars : (field : CharPrompt) → field.Content
  askChars : CharPrompt → Bool
  jobSliceCount : ℕ
  askJobSliceCount : Bool
  inventory : Option InventoryId
  askInventory : Bool
  executionEnvironment : Option ℕ
  askExecutionEnvironment : Bool
  credentials : List CredentialId
  askCredential : Bool
  labels : List LabelId
  askLabels : Bool
  askInstanceGroups : Bool
  preferredInstanceGroups : Option InventoryId → List InstanceGroupId
  survey : SurveyTemplate
  project : Option Project
  allowSimultaneous : Bool

/-- The keyword arguments of a launch.  An inventory that is given can be `None`. -/
structure Prompts where
  chars : (field : CharPrompt) → Option field.Content
  jobSliceCount : Option ℕ
  inventory : Option (Option InventoryId)
  executionEnvironment : Option ℕ
  credentials : Option (List CredentialId)
  labels : Option (List LabelId)
  instanceGroups : Option (List InstanceGroupId)
  extraVars : Option Vars
  surveyPasswords : Option (Dict String String)

def Prompts.none : Prompts :=
  ⟨fun _ => .none, .none, .none, .none, .none, .none, .none, .none, .none⟩

structure LaunchConfig where
  chars : (field : CharPrompt) → Option field.Content
  jobSliceCount : Option ℕ
  inventory : Option InventoryId
  executionEnvironment : Option ℕ
  credentials : List CredentialId
  labels : List LabelId
  instanceGroups : List InstanceGroupId
  extraData : Vars
  surveyPasswords : Dict String String

def LaunchConfig.empty : LaunchConfig :=
  ⟨fun _ => none, none, none, none, [], [], [], ∅, ∅⟩

abbrev FieldError := String × List String

/-! ## Accepted and ignored values -/

inductive Decision (α : Type) where
  | noOp
  | accepted (value : α)
  | rejected (value : α) (error : Option String)

namespace Decision

variable {α : Type}

def prompted : Decision α → Option α
  | accepted value => some value
  | _ => none

def ignored : Decision α → Option α
  | rejected value _ => some value
  | _ => none

def errors (fieldName : String) : Decision α → List FieldError
  | rejected _ (some error) => [(fieldName, [error])]
  | _ => []

end Decision

/-- The rule for one field: the value of the template is no prompt, and another one has to
be asked for and must have no problem. -/
def decideField {α : Type} (excludeErrors : List String) (asked : Bool) (same : α → Bool)
    (problem : α → Option String) (value : Option α) : Decision α :=
  match value with
  | none => .noOp
  | some value =>
      if same value then .noOp
      else if asked then
        match problem value with
        | some error => .rejected value (some error)
        | none => .accepted value
      else
        .rejected value
          (if "prompts" ∈ excludeErrors then none
          else some "Field is not configured to prompt on launch.")

/-- The answer of `_accept_or_ignore_job_kwargs`. -/
structure Verdict where
  prompted : Prompts
  rejected : Prompts
  errors : List FieldError

def nonEmptyDict {V : Type} (dict : Dict String V) : Option (Dict String V) :=
  if dict.entries = [] then none else some dict

def nonEmptyList {α : Type} : List α → Option (List α)
  | [] => none
  | items => some items

def firsts {α : Type} [DecidableEq α] (items : List α) : List α := items.reverse.dedup.reverse

/-- The credentials of a prompt that the template does not have, as a set. -/
def Installation.newCredentials (env : Installation) (own given : List CredentialId) :
    List CredentialId :=
  env.setOrder (given.dedup.filter fun credential => credential ∉ own)

namespace JobTemplate

variable (env : Installation) (template : JobTemplate)

def actualInventory (kwargs : Prompts) : Option InventoryId :=
  match kwargs.inventory with
  | some inventory => if template.askInventory then inventory else template.inventory
  | none => template.inventory

def actualSliceCount (kwargs : Prompts) : ℕ :=
  match kwargs.jobSliceCount with
  | some count => if template.askJobSliceCount then count else template.jobSliceCount
  | none => template.jobSliceCount

def getEffectiveSliceCt (kwargs : Prompts) : ℕ :=
  match template.actualInventory kwargs with
  | some inventory =>
      min (template.actualSliceCount kwargs)
        ((env.inventories inventory).hosts env.tables.toDatabase).length
  | none => template.actualSliceCount kwargs

/-- The value of the template, or for branches the default of the project. -/
def sameChar (field : CharPrompt) (value : field.Content) : Bool :=
  decide (value = template.chars field) ||
    match field, value with
    | .scmBranch, branch =>
        decide (template.chars .scmBranch = "") &&
          template.project.any fun project => decide (branch = project.scmBranch)
    | _, _ => false

def charProblem : (field : CharPrompt) → field.Content → Option String
  | .scmBranch, branch =>
      match template.project with
      | none => some "Project is missing."
      | some project =>
          if branch ≠ project.scmBranch ∧ project.allowOverride = false then
            some "Project does not allow override of branch."
          else none
  | _, _ => none

def decideChar (excludeErrors : List String) (kwargs : Prompts) (field : CharPrompt) :
    Decision field.Content :=
  decideField excludeErrors (template.askChars field) (template.sameChar field)
    (template.charProblem field) (kwargs.chars field)

def decideJobSliceCount (excludeErrors : List String) (kwargs : Prompts) : Decision ℕ :=
  decideField excludeErrors template.askJobSliceCount
    (fun count => decide (count = template.jobSliceCount))
    (fun count =>
      if 1 < count ∧ template.getEffectiveSliceCt env kwargs ≤ 1 then
        some "Job inventory does not have enough hosts for slicing"
      else none) kwargs.jobSliceCount

/-- An inventory that is `None` counts as not given. -/
def decideInventory (excludeErrors : List String) (kwargs : Prompts) : Decision InventoryId :=
  decideField excludeErrors template.askInventory
    (fun inventory => decide (some inventory = template.inventory)) (fun _ => none)
    kwargs.inventory.join

def decideExecutionEnvironment (excludeErrors : List String) (kwargs : Prompts) : Decision ℕ :=
  decideField excludeErrors template.askExecutionEnvironment
    (fun environment => decide (some environment = template.executionEnvironment))
    (fun _ => none) kwargs.executionEnvironment

def decideCredentials (excludeErrors : List String) (kwargs : Prompts) :
    Decision (List CredentialId) :=
  decideField excludeErrors template.askCredential List.isEmpty (fun _ => none)
    (kwargs.credentials.map (env.newCredentials template.credentials))

/-- A list never equals the labels or the groups of the template, which are a query. -/
def decideLabels (excludeErrors : List String) (kwargs : Prompts) : Decision (List LabelId) :=
  decideField excludeErrors template.askLabels (fun _ => false) (fun _ => none) kwargs.labels

def decideInstanceGroups (excludeErrors : List String) (kwargs : Prompts) :
    Decision (List InstanceGroupId) :=
  decideField excludeErrors template.askInstanceGroups (fun _ => false) (fun _ => none)
    kwargs.instanceGroups

def passwordsNeededToStart : List String :=
  template.credentials.flatMap fun credential => (env.credentials credential).passwordsNeeded

/-- `resources_needed_to_start`, without those that the prompts provide. -/
def missingResources (prompted : Prompts) : List String :=
  (if template.project.isNone then ["project"] else []) ++
    if template.inventory.isNone && prompted.inventory.isNone then ["inventory"] else []

def acceptOrIgnoreJobKwargs (excludeErrors : List String) (kwargs : Prompts) : Verdict :=
  let acceptance := template.survey.acceptOrIgnoreVariables env.surveys excludeErrors
    (kwargs.surveyPasswords.getD ∅).keys (kwargs.extraVars.getD ∅)
  let chars := template.decideChar excludeErrors kwargs
  let jobSliceCount := template.decideJobSliceCount env excludeErrors kwargs
  let inventory := template.decideInventory excludeErrors kwargs
  let executionEnvironment := template.decideExecutionEnvironment excludeErrors kwargs
  let credentials := template.decideCredentials env excludeErrors kwargs
  let labels := template.decideLabels excludeErrors kwargs
  let instanceGroups := template.decideInstanceGroups excludeErrors kwargs
  let prompted : Prompts :=
    { chars := fun field => (chars field).prompted
      jobSliceCount := jobSliceCount.prompted
      inventory := inventory.prompted.map some
      executionEnvironment := executionEnvironment.prompted
      credentials := credentials.prompted
      labels := labels.prompted
      instanceGroups := instanceGroups.prompted
      extraVars := nonEmptyDict acceptance.accepted
      surveyPasswords := none }
  let rejected : Prompts :=
    { chars := fun field => (chars field).ignored
      jobSliceCount := jobSliceCount.ignored
      inventory := inventory.ignored.map some
      executionEnvironment := executionEnvironment.ignored
      credentials := credentials.ignored
      labels := labels.ignored
      instanceGroups := instanceGroups.ignored
      extraVars := nonEmptyDict acceptance.rejected
      surveyPasswords := none }
  let passwordErrors :=
    if "prompts" ∉ excludeErrors ∧ template.askCredential = false ∧
        template.passwordsNeededToStart env ≠ [] then
      ["Saved launch configurations cannot provide passwords needed to start."]
    else []
  let resourceErrors := (template.missingResources prompted).map fun resource =>
    "Job Template " ++ resource ++ " is missing or undefined."
  let entries : List FieldError :=
    [("variables_needed_to_start", acceptance.variablesNeededToStart),
      ("extra_vars", acceptance.extraVars),
      ("passwords_needed_to_start", passwordErrors),
      ("resources_needed_to_start", resourceErrors)]
  { prompted := prompted
    rejected := rejected
    errors := (CharPrompt.all.flatMap fun field => (chars field).errors field.fieldName) ++
      jobSliceCount.errors "job_slice_count" ++ inventory.errors "inventory" ++
      executionEnvironment.errors "execution_environment" ++
      credentials.errors "credentials" ++ labels.errors "labels" ++
      instanceGroups.errors "instance_groups" ++
      entries.filter fun entry => !entry.2.isEmpty }

end JobTemplate

/-! ## Saved prompts -/

/-- `create_config_from_prompts`.  Credentials and labels are saved as far as the template
does not have them, and instance groups in their order. -/
def createConfigFromPrompts (env : Installation) (template : JobTemplate) (kwargs : Prompts) :
    LaunchConfig where
  chars := kwargs.chars
  jobSliceCount := kwargs.jobSliceCount
  inventory := kwargs.inventory.join
  executionEnvironment := kwargs.executionEnvironment
  credentials := env.newCredentials template.credentials (kwargs.credentials.getD [])
  labels := env.setOrder ((kwargs.labels.getD []).dedup.filter fun label => label ∉ template.labels)
  instanceGroups := firsts (kwargs.instanceGroups.getD [])
  extraData := kwargs.extraVars.getD ∅
  surveyPasswords := kwargs.surveyPasswords.getD ∅

def LaunchConfig.promptsDict (env : Installation) (config : LaunchConfig) : Prompts where
  chars := config.chars
  jobSliceCount := config.jobSliceCount
  inventory := config.inventory.map some
  executionEnvironment := config.executionEnvironment
  credentials := nonEmptyList (env.rowOrder config.credentials)
  labels := nonEmptyList (env.rowOrder config.labels)
  instanceGroups := nonEmptyList config.instanceGroups
  extraVars := nonEmptyDict config.extraData
  surveyPasswords := nonEmptyDict config.surveyPasswords

/-! ## Launches of the API -/

def Installation.uniqueDict (env : Installation) (credentials : List CredentialId) :
    Dict String CredentialId :=
  assignAll (fun credential => (env.credentials credential).uniqueHash) some credentials ∅

/-- The credentials of a launch: those of the template with the prompted ones in place of the
ones with the same hash. -/
def Installation.layered (env : Installation) (own prompted : List CredentialId) :
    Dict String CredentialId :=
  env.uniqueDict prompted ∪ env.uniqueDict own

end Forail.LaunchPrompts
